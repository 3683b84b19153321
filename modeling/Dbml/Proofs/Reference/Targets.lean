import Dbml.Document
import Dbml.Proofs.Reference.Identifiers
import Dbml.Proofs.Respacing.Settings

/-!
# Targets without a schema

A target of letters and dots names as tokens what it names as a text only if all its parts are
identifiers: an empty part, such as the schema of `.table.column`, is no part of a name among
tokens. Main statement: `endpoint_of_dotted`.
-/

namespace Dbml

open Text

namespace Token

variable {offset : Nat} {cs : List Char} {name : String} {lexeme : Lexeme} {lexemes : List Lexeme}

/-- A name at the beginning of a text of letters and dots is a bare word. -/
theorem Run.first_name (run : Run offset cs (lexeme :: lexemes)) (dotted : IsDotted cs)
    (named : lexeme.token.name? = some name) :
    ∃ word rest, IsWord word ∧ cs = word ++ rest ∧ Run (offset + byteSize word) rest lexemes := by
  cases run with
  | @token _ gap c tail rest token _ between ends reads others =>
    obtain rfl := between.eq_nil dotted.left.solid
    have letter : continuesWord c = true ∨ c = '.' := dotted c (by simp)
    cases reads with
    | ident begins run stops => exact ⟨c :: tail, rest, ⟨begins, run⟩, rfl, others⟩
    | str quotes =>
      rcases quotes with rfl | rfl
      · exact absurd letter (by decide)
      · exact absurd letter (by decide)
    | _ => cases named

theorem Run.first_dot (run : Run offset cs (lexeme :: lexemes)) (dotted : IsDotted cs)
    (dot : lexeme.token = .mark .dot) :
    ∃ rest, cs = '.' :: rest ∧ Run (offset + 1) rest lexemes := by
  cases run with
  | @token _ gap c tail rest token _ between ends reads others =>
    obtain rfl := between.eq_nil dotted.left.solid
    obtain rfl : token = .mark .dot := dot
    cases reads with
    | mark spelled =>
      obtain rfl : '.' = c := by simpa [Mark.spelling] using Mark.spelling_of_ofChar? spelled
      exact ⟨rest, rfl, others⟩

/-- The text of tokens that make a dotted name consists of bare words with dots between them. -/
theorem Run.exists_words {parts : List String} (run : Run offset cs lexemes)
    (dotted : IsDotted cs) (found : nameParts (lexemes.map (·.token)) = some parts) :
    ∃ words, words ≠ [] ∧ (∀ word ∈ words, IsWord word) ∧ cs = ['.'].intercalate words := by
  -- A name and the dot behind it are taken off together.
  induction size : lexemes.length using Nat.strongRecOn generalizing offset cs lexemes parts with
  | ind n ih =>
  match lexemes with
  | [] => cases found
  | [lexeme] =>
    obtain ⟨name, named, -⟩ := Option.map_eq_some_iff.1 found
    obtain ⟨word, rest, isWord, rfl, last⟩ := run.first_name dotted named
    obtain rfl : rest = [] := by
      cases last with
      | last last => exact last.eq_nil dotted.right.solid
    refine ⟨[word], by simp, by simpa using isWord, by simp⟩
  | lexeme :: next :: rest =>
    rw [List.map_cons, List.map_cons, nameParts] at found
    by_cases dot : next.token = .mark .dot
    · rw [if_pos dot] at found
      obtain ⟨name, named, found⟩ := Option.bind_eq_some_iff.1 found
      obtain ⟨others, behind, -⟩ := Option.bind_eq_some_iff.1 found
      obtain ⟨word, follow, isWord, rfl, later⟩ := run.first_name dotted named
      obtain ⟨after, rfl, last⟩ := later.first_dot dotted.right dot
      have more : IsDotted after := fun c listed => dotted.right c (List.mem_cons_of_mem _ listed)
      obtain ⟨words, some_word, all, rfl⟩ :=
        ih rest.length (by rw [← size, List.length_cons, List.length_cons]; omega)
        last more behind rfl
      refine ⟨word :: words, by simp, ?_, ?_⟩
      · intro other listed
        rcases List.mem_cons.1 listed with rfl | among
        · exact isWord
        · exact all other among
      · rw [List.intercalate_cons_of_ne_nil some_word, List.append_assoc]
        rfl
    · rw [if_neg dot] at found
      cases found

/-- A text of letters and dots has no quotes, and so it is read. -/
theorem exists_read_of_dotted {text : String} (dotted : IsDotted text.toList) :
    ∃ t, Source.ofString text = .ok t := by
  cases read : Source.ofString text with
  | ok t => exact ⟨t, rfl⟩
  | error error =>
    have spec := Source.lossless_ofString text
    rw [read] at spec
    obtain ⟨before, after, parts, -⟩ := spec
    have quote : '\'' ∈ text.toList := by
      rw [parts]
      simp [tripleQuote]
    exact absurd (dotted _ quote) (by decide)

end Token

open Token (IsDotted IsIdentifier)

namespace Source

/-- A text is its parts with dots between them. -/
theorem intercalate_splitDots (text : String) :
    ".".intercalate ((Endpoint.splitDots text.toList).map String.ofList) = text := by
  refine String.toList_injective ?_
  rw [String.toList_intercalate, List.map_map, splitDots_eq_splitOn]
  simp [Function.comp_def, List.intercalate_splitOn]

/-- Among tokens, a part of a target that is no identifier is no part of a name. -/
theorem nameParts_eq_none {t : Source} {text : String} (dotted : IsDotted text.toList)
    (read : ofString text = .ok t)
    (other : ∃ part ∈ Endpoint.splitDots text.toList, ¬ IsIdentifier (String.ofList part)) :
    nameParts (t.tokens t.all) = none := by
  cases found : nameParts (t.tokens t.all) with
  | none => rfl
  | some parts =>
    obtain ⟨chars, run⟩ := ofString_eq_ok.1 read
    rw [tokens_all] at found
    obtain ⟨words, some_word, all, joined⟩ := run.exists_words dotted found
    obtain ⟨part, listed, noIdentifier⟩ := other
    rw [joined, splitDots_intercalate some_word all] at listed
    have word := all part listed
    rw [Token.isIdentifier_iff, String.toList_ofList] at noIdentifier
    exact absurd word noIdentifier

/-- What a target of letters and dots names in a document, wherever its tokens stand. If all parts
between the dots are identifiers, it names what the text does. If one is not, it names no column in
a table, though the text may do so. -/
theorem endpoint_of_dotted (text : String) (dotted : IsDotted text.toList) :
    ∃ t, ofString text = .ok t ∧ ∀ s before d, Embedded t s before d →
      ((∀ part ∈ Endpoint.splitDots text.toList, IsIdentifier (String.ofList part)) →
        s.endpoint (t.all.shift d) = Endpoint.ofText text) ∧
      ((∃ part ∈ Endpoint.splitDots text.toList, ¬ IsIdentifier (String.ofList part)) →
        s.endpoint (t.all.shift d) = ⟨Endpoint.unknownTable, text, true⟩) := by
  obtain ⟨t, read⟩ := Token.exists_read_of_dotted dotted
  refine ⟨t, read, fun s before d embedded => ⟨fun identifiers => ?_, fun other => ?_⟩⟩
  · have names : ∀ name ∈ (Endpoint.splitDots text.toList).map String.ofList,
        IsIdentifier name := by
      intro name listed
      obtain ⟨part, among, rfl⟩ := List.mem_map.1 listed
      exact identifiers part among
    have some_name : (Endpoint.splitDots text.toList).map String.ofList ≠ [] := by
      rw [splitDots_eq_splitOn]
      simp [List.splitOn_ne_nil]
    obtain ⟨u, again, -, named, split⟩ := exists_read_of_identifiers some_name names
    rw [intercalate_splitDots] at again named split
    rw [read] at again
    obtain rfl : t = u := Except.ok.inj again
    rw [embedded.copied.endpoint, named, split]
  · obtain ⟨chars, run⟩ := ofString_eq_ok.1 read
    have whole : t.text t.all = text := by
      rw [← chars] at run dotted
      rw [text_all run dotted.solid, chars, String.ofList_toList]
    rw [embedded.copied.endpoint, endpoint, nameParts_eq_none dotted read other, whole,
      trimmed_of_solid dotted.solid]
    rfl

/-- A target with a schema is understood, and one with an empty schema is not. -/
theorem endpoint_of_dotted_emptySchema :
    (∃ t, ofString "auth.users.id" = .ok t ∧ t.endpoint t.all = ⟨"auth.users", "id", false⟩) ∧
    ∃ t, ofString ".t.c" = .ok t ∧ t.endpoint t.all = ⟨"unknown", ".t.c", true⟩ := by
  constructor
  · obtain ⟨t, read, named⟩ := endpoint_of_dotted "auth.users.id" (by decide)
    exact ⟨t, read, (named t [] 0 (.refl read)).1 (by decide +kernel)⟩
  · obtain ⟨t, read, named⟩ := endpoint_of_dotted ".t.c" (by decide)
    exact ⟨t, read, (named t [] 0 (.refl read)).2 (by decide +kernel)⟩

end Source

/-- Two references to a target with an empty schema. -/
def emptySchemaText : String :=
  "Table x \x7b\n y int [ref: > .t.c]\n\x7d\nRef: .t.c > x.y\n"

/-- The text of the target names a column of the table `t`, and the references point at no table. -/
theorem emptySchema_lost : Endpoint.ofText ".t.c" = ⟨"t", "c", false⟩ ∧
    (∃ t, Source.ofString ".t.c" = .ok t ∧ t.endpoint t.all = ⟨"unknown", ".t.c", true⟩) ∧
    ∃ database, parse emptySchemaText = .ok database ∧
      database.relationships.map (fun r => (r.fromTable, r.fromColumn, r.toTable, r.toColumn)) =
        [("x", "y", "unknown", ".t.c"), ("unknown", ".t.c", "x", "y")] := by
  refine ⟨by decide, ?_, ?_⟩
  · have evaluated : (Source.ofString ".t.c").toOption.map (fun t => t.endpoint t.all) =
        some ⟨"unknown", ".t.c", true⟩ := by decide +kernel
    obtain ⟨t, read, named⟩ := Option.map_eq_some_iff.1 evaluated
    exact ⟨t, eq_ok_of_toOption read, named⟩
  · have evaluated : (parse emptySchemaText).toOption.map (fun database =>
        database.relationships.map fun r => (r.fromTable, r.fromColumn, r.toTable, r.toColumn)) =
        some [("x", "y", "unknown", ".t.c"), ("unknown", ".t.c", "x", "y")] := by decide +kernel
    obtain ⟨database, parsed, pointed⟩ := Option.map_eq_some_iff.1 evaluated
    exact ⟨database, eq_ok_of_toOption parsed, pointed⟩

end Dbml
