import Dbml.Proofs.Document.Parse
import Dbml.Proofs.Keywords.Assembling

/-!
# Keywords in any letters

Whether the letters of a keyword are capital or small does not matter: the document has the same
database, and the same is reported at the same locations. Main statement: `parseReport_recase`.
-/

namespace Dbml

open Source

variable {text : String} {s : Source} {segments : List Segment} {flips : Nat → Bool} {k : Nat}

namespace Source

/-- Bytes that belong to keywords touch no other tokens. -/
theorem mem_keywords_of_touches (run : Token.Run 0 s.chars s.lexemes.toList)
    (letters : ∀ p, flips p = true → s.inKeyword segments p = true) (touched : s.Touches flips k) :
    k ∈ s.keywords segments := by
  obtain ⟨span, p, here, covers, flipped⟩ := touched
  obtain ⟨i, listed, other, there, covers'⟩ := inKeyword_iff.1 (letters p flipped)
  rw [Token.covers_iff] at covers covers'
  rcases Nat.lt_trichotomy i k with less | rfl | greater
  · have := span_apart run less there here
    omega
  · exact listed
  · have := span_apart run greater here there
    omega

theorem inWords_of_keywords (scanned : s.scan = .ok segments)
    (letters : ∀ p, flips p = true → s.inKeyword segments p = true) : s.InWords flips := by
  intro p flipped
  obtain ⟨i, listed, span, here, covers⟩ := inKeyword_iff.1 (letters p flipped)
  obtain ⟨-, -, word, token⟩ := (partition_of_scan scanned).keyword none listed
  exact ⟨i, span, word, here, covers, token⟩

end Source

/-- With letters of its keywords in the other case, a text that can be parsed has the same database
and the same diagnostics. -/
theorem parseReport_recase (read : ofString text = .ok s) (scanned : s.scan = .ok segments)
    (letters : ∀ p, flips p = true → s.inKeyword segments p = true) :
    (∃ report, parseReport text false = .ok report) ∧ ∀ strict,
      parseReport (String.ofList (Text.recase flips 0 text.toList)) strict =
        parseReport text strict := by
  obtain ⟨chars, run⟩ := ofString_eq_ok.1 read
  rw [← chars] at run
  have words := inWords_of_keywords scanned letters
  have recased := recased run words
  obtain ⟨scanned', kept⟩ :=
    recased.scan scanned fun k touched => mem_keywords_of_touches run letters touched
  have assembled := Kept.assemble recased.toSameButCase kept
  have diagnose : (s.recase flips).diagnose = s.diagnose := funext fun finding => by
    rw [Source.diagnose, diagnostic, recased.location, Source.diagnose, diagnostic]
  refine ⟨⟨_, parseReport_false read scanned⟩, fun strict => ?_⟩
  rw [parseReport_of_segments strict (ofString_recase read words) scanned',
    parseReport_of_segments strict read scanned, assembled, diagnose]

/-- Keywords of each kind, and the words of keywords where they are none: on a line of a table, as a
quoted text, and in a name. -/
def keywordText : String :=
  "Project p \x7b\ndatabase_type: 'x'\n\x7d\nTable t as u \x7b\nRef: t.i > v.j\nNote\n\x7d\n" ++
    "TableGroup g \x7b\nNote: 'Note'\n\x7d\nRef: u.i < w.ref\n"

/-- The text with all letters of its keywords in the other case. -/
def otherKeywordText : String :=
  "pROJECT p \x7b\nDATABASE_TYPE: 'x'\n\x7d\ntABLE t AS u \x7b\nrEF: t.i > v.j\nNote\n\x7d\n" ++
    "tABLEgROUP g \x7b\nnOTE: 'Note'\n\x7d\nrEF: u.i < w.ref\n"

theorem parseReport_recase_keywords : ∃ s segments, ofString keywordText = .ok s ∧
    s.scan = .ok segments ∧
    String.ofList (Text.recase (s.inKeyword segments) 0 keywordText.toList) = otherKeywordText ∧
    (∃ report, parseReport keywordText false = .ok report) ∧
    ∀ strict, parseReport otherKeywordText strict = parseReport keywordText strict := by
  have evaluated : (ofString keywordText).toOption.bind (fun s =>
      s.scan.toOption.map fun segments =>
        String.ofList (Text.recase (s.inKeyword segments) 0 keywordText.toList)) =
      some otherKeywordText := by decide +kernel
  obtain ⟨s, segments, read, scanned, other⟩ := exists_of_scanned evaluated
  have same := parseReport_recase read scanned
    fun p (letter : s.inKeyword segments p = true) => letter
  rw [other] at same
  exact ⟨s, segments, read, scanned, other, same⟩

end Dbml
