import Dbml.Proofs.Document.Parse
import Dbml.Proofs.Segment.Unclosed
import Dbml.Proofs.Verbatim.Assembling
import Dbml.Proofs.Verbatim.Texts

/-!
# What stands between tokens

Two texts with the same tokens at the same places may differ in the comments between them. They are
parsed to databases that are the same but for the texts that are cut out of them as they are: the
comments between the tokens of one line are part of those. Main statement: `parse_of_same_lexemes`.
-/

namespace Dbml

open Source

variable {R : String → String → Prop} {s t : Source}

/-- The same way to fail, and the same keyword. -/
inductive ParseError.SameKind : ParseError → ParseError → Prop
  | lex (error error' : LexError) : SameKind (.lex error) (.lex error')
  | unterminatedBlock (keyword : String) (location location' : Location) :
    SameKind (.scan (.unterminatedBlock keyword location))
      (.scan (.unterminatedBlock keyword location'))
  | tooDeep (location location' : Location) :
    SameKind (.scan (.tooDeep location)) (.scan (.tooDeep location'))
  | strict (diagnostic diagnostic' : Diagnostic) :
    SameKind (.strict diagnostic) (.strict diagnostic')

/-- Texts that the same tokens of one line are written with, perhaps behind a number sign. -/
inductive CutAlike (s t : Source) : String → String → Prop
  | same (text : String) : CutAlike s t text text
  | cut {range : TokenRange} (inline : s.Inline range) : CutAlike s t (s.text range) (t.text range)
  | color {range : TokenRange} (inline : s.Inline range) :
    CutAlike s t ("#" ++ s.text range) ("#" ++ t.text range)

/-! ## Two sources -/

theorem SameTokens.scan (same : SameTokens s t) :
    (∃ fault, s.scan = .error (s.scanError fault) ∧ t.scan = .error (t.scanError fault)) ∨
      ∃ segments, s.scan = .ok segments ∧ t.scan = .ok segments := by
  have scanned := same.scanWithin (some depthLimit)
  cases found : s.scanWithin (some depthLimit) with
  | error fault =>
    rw [found] at scanned
    exact .inl ⟨fault, scan_eq_error.2 ⟨fault, found, rfl⟩, scan_eq_error.2 ⟨fault, scanned, rfl⟩⟩
  | ok segments =>
    rw [found] at scanned
    exact .inr ⟨segments, scan_eq_ok.2 found, scan_eq_ok.2 scanned⟩

theorem SameTokens.scanError (same : SameTokens s t) (fault : ScanFault) :
    ParseError.SameKind (.scan (s.scanError fault)) (.scan (t.scanError fault)) := by
  cases fault with
  | unterminated position =>
    rw [Source.scanError, Source.scanError, same.token?]
    exact .unterminatedBlock _ _ _
  | tooDeep position => exact .tooDeep _ _

/-- A source that retells another one fails as that one, or has a database that is alike. -/
theorem Retold.parseReport_sameKind (retold : Retold R s t) {a b : String} (first : ofString a = .ok s)
    (second : ofString b = .ok t) (strict : Bool) :
    Except.Alike ParseError.SameKind (fun x y => Database.Alike R x.database y.database)
      (parseReport a strict) (parseReport b strict) := by
  rcases retold.tokens.scan with ⟨fault, failed, failed'⟩ | ⟨segments, scanned, scanned'⟩
  · rw [parseReport_of_scan first failed, parseReport_of_scan second failed']
    exact .error (retold.tokens.scanError fault)
  · have alike := retold.assemble (inline_of_scan scanned)
    have length : (Diagnostic.sort ((t.assemble segments).findings.map t.diagnose)).length =
        (Diagnostic.sort ((s.assemble segments).findings.map s.diagnose)).length := by
      simp only [Diagnostic.sort, List.length_mergeSort, List.length_map, alike.findings.length_eq]
    rw [parseReport_of_segments strict first scanned, parseReport_of_segments strict second scanned']
    cases strict with
    | false => exact .ok alike.value
    | true =>
      cases noted : Diagnostic.sort ((s.assemble segments).findings.map s.diagnose) with
      | nil =>
        rw [noted, List.length_nil, List.length_eq_zero_iff] at length
        rw [length]
        exact .ok alike.value
      | cons diagnostic others =>
        rw [noted] at length
        obtain ⟨diagnostic', others', noted'⟩ := List.exists_cons_of_length_eq_add_one length
        rw [noted']
        exact .error (.strict diagnostic diagnostic')

theorem Retold.parse_sameKind (retold : Retold R s t) {a b : String} (first : ofString a = .ok s)
    (second : ofString b = .ok t) :
    Except.Alike ParseError.SameKind (Database.Alike R) (parse a) (parse b) := by
  rw [parse_eq_map, parse_eq_map]
  exact (retold.parseReport_sameKind first second false).map fun _ _ alike => alike

/-! ## The same tokens at the same places -/

/-- A source with the same tokens at the same places retells another one. -/
theorem retold_of_same_lexemes {a b : String} (first : ofString a = .ok s)
    (second : ofString b = .ok t) (same : t.lexemes = s.lexemes) (refl : ∀ x, R x x)
    (text : ∀ range, s.Inline range → R (s.text range) (t.text range))
    (sign : ∀ range, s.Inline range → R ("#" ++ s.text range) ("#" ++ t.text range)) :
    Retold R s t := by
  obtain ⟨chars, run⟩ := ofString_eq_ok.1 first
  obtain ⟨chars', run'⟩ := ofString_eq_ok.1 second
  rw [← chars] at run
  rw [← chars'] at run'
  have tokens : SameTokens s t := by rw [SameTokens, same]
  refine .of_runs tokens run run' refl ?_ text sign
  intro i j x y x' y' _ _ here there here' there'
  rw [span?, same] at here' there'
  rw [span?] at here there
  rw [here] at here'
  rw [there] at there'
  cases here'
  cases there'
  exact Iff.rfl

/-- Texts with the same tokens at the same places fail in the same way, or have databases that are
the same but for the texts that are cut out of them. If those are the same on every line, so are the
databases. -/
theorem parse_of_same_lexemes {a b : String} (first : ofString a = .ok s)
    (second : ofString b = .ok t) (same : t.lexemes = s.lexemes) :
    Except.Alike ParseError.SameKind (Database.Alike (CutAlike s t)) (parse a) (parse b) ∧
      (∀ strict, Except.Alike ParseError.SameKind
        (fun x y => Database.Alike (CutAlike s t) x.database y.database)
        (parseReport a strict) (parseReport b strict)) ∧
      ((∀ range, s.Inline range → t.text range = s.text range) →
        Except.Alike ParseError.SameKind Eq (parse a) (parse b)) := by
  have cut : Retold (CutAlike s t) s t :=
    retold_of_same_lexemes first second same .same (fun _ inline => .cut inline)
      (fun _ inline => .color inline)
  refine ⟨cut.parse_sameKind first second, cut.parseReport_sameKind first second, fun texts => ?_⟩
  have equal : Retold Eq s t :=
    retold_of_same_lexemes first second same (fun _ => rfl)
      (fun range inline => (texts range inline).symm)
      (fun range inline => by rw [texts range inline])
  exact (equal.parse_sameKind first second).imp fun _ _ alike => alike.eq.symm

/-- A type with a comment in it. -/
def commentedTypeText (comment : String) : String :=
  "Table t \x7b\n p decimal(10,/*" ++ comment ++ "*/2)\n\x7d\n"

theorem commentedTypeText_lexemes :
    ∃ s t, Source.ofString (commentedTypeText "a") = .ok s ∧
      Source.ofString (commentedTypeText "b") = .ok t ∧ t.lexemes = s.lexemes := by
  have evaluated : (Source.ofString (commentedTypeText "a")).toOption.bind (fun s =>
      (Source.ofString (commentedTypeText "b")).toOption.map fun t =>
        decide (t.lexemes = s.lexemes)) = some true := by decide +kernel
  obtain ⟨s, first, evaluated⟩ := Option.bind_eq_some_iff.1 evaluated
  obtain ⟨t, second, same⟩ := Option.map_eq_some_iff.1 evaluated
  exact ⟨s, t, eq_ok_of_toOption first, eq_ok_of_toOption second, of_decide_eq_true same⟩

theorem parse_of_same_lexemes_comments :
    ∃ s t, Source.ofString (commentedTypeText "a") = .ok s ∧
      Source.ofString (commentedTypeText "b") = .ok t ∧ t.lexemes = s.lexemes ∧
      Except.Alike ParseError.SameKind (Database.Alike (CutAlike s t))
        (parse (commentedTypeText "a")) (parse (commentedTypeText "b")) ∧
      (∀ strict, Except.Alike ParseError.SameKind
        (fun x y => Database.Alike (CutAlike s t) x.database y.database)
        (parseReport (commentedTypeText "a") strict)
        (parseReport (commentedTypeText "b") strict)) ∧
      ((∀ range, s.Inline range → t.text range = s.text range) →
        Except.Alike ParseError.SameKind Eq (parse (commentedTypeText "a"))
          (parse (commentedTypeText "b"))) := by
  obtain ⟨s, t, first, second, same⟩ := commentedTypeText_lexemes
  exact ⟨s, t, first, second, same, parse_of_same_lexemes first second same⟩

/-- A comment between the parentheses of a type is part of it. -/
theorem not_parse_of_same_lexemes :
    ¬ ∀ (a b : String) (s t : Source), Source.ofString a = .ok s → Source.ofString b = .ok t →
      t.lexemes = s.lexemes → Except.Alike ParseError.SameKind Eq (parse a) (parse b) := by
  intro always
  obtain ⟨s, t, first, second, same⟩ := commentedTypeText_lexemes
  have typed : (parse (commentedTypeText "a")).toOption.map
      (·.tables.map fun table => table.columns.map (·.type)) = some [["decimal(10,/*a*/2)"]] := by
    decide +kernel
  have typed' : (parse (commentedTypeText "b")).toOption.map
      (·.tables.map fun table => table.columns.map (·.type)) = some [["decimal(10,/*b*/2)"]] := by
    decide +kernel
  obtain ⟨x, parsed, typed⟩ := Option.map_eq_some_iff.1 typed
  obtain ⟨y, parsed', typed'⟩ := Option.map_eq_some_iff.1 typed'
  have alike := always _ _ s t first second same
  rw [eq_ok_of_toOption parsed, eq_ok_of_toOption parsed'] at alike
  cases alike with
  | ok equal =>
    rw [← equal, typed] at typed'
    exact absurd typed' (by decide)

end Dbml
