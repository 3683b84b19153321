import Dbml.Assembly
import Dbml.Proofs.Respacing.Lines
import Dbml.Proofs.Segment.Places
import Dbml.Proofs.Source.Masks

/-!
# Sources with the same tokens

Most readings of a source depend on its tokens only, wherever they stand and however they are
written. Main statements: one lemma for each such reading, and `SameTokens.scanWithin`, sources with
the same tokens fall into the same segments.
-/

namespace Dbml

open Source

/-- The same tokens, with any spans. -/
def SameTokens (s t : Source) : Prop :=
  t.lexemes.map (·.token) = s.lexemes.map (·.token)

theorem reveals_id : Reveals id :=
  ⟨fun _ _ => rfl, fun _ => rfl, fun _ _ => rfl, fun _ => rfl, fun _ => rfl⟩

namespace SameTokens

variable {s t : Source} (same : SameTokens s t)

include same

/-! ## Tokens by number -/

theorem size : t.size = s.size := by
  have sizes := congrArg Array.size same
  rwa [Array.size_map, Array.size_map] at sizes

theorem token? (i : Nat) : t.token? i = s.token? i := by
  rw [Source.token?, Source.token?, ← Array.getElem?_map, ← Array.getElem?_map, same]

theorem holds (i : Nat) (p : Token → Bool) : t.holds i p = s.holds i p := by
  rw [Source.holds, same.token?, Source.holds]

theorem isMark (i : Nat) (mark : Mark) : t.isMark i mark = s.isMark i mark := by
  rw [Source.isMark, same.token?, Source.isMark]

theorem isKeyword (i : Nat) (keyword : String) : t.isKeyword i keyword = s.isKeyword i keyword :=
  same.holds i _

theorem tokens (range : TokenRange) : t.tokens range = s.tokens range := by
  simp only [Source.tokens, ← Array.toList_map, Array.map_extract]
  rw [show t.lexemes.map (·.token) = s.lexemes.map (·.token) from same]

theorem alike : LooksAlike id s t := fun i => congrArg (Option.map id) (same.token? i)

/-! ## Searches -/

theorem find? (range : TokenRange) (p : Token → Bool) : t.find? range p = s.find? range p :=
  same.alike.find? (fun _ => rfl) range

theorem findOutside? (left right : Mark) (range : TokenRange) (p : Token → Bool) :
    t.findOutside? left right range p = s.findOutside? left right range p :=
  same.alike.findOutside? reveals_id left right (fun _ => rfl) range

theorem matching (start stop : Nat) (left right : Mark) :
    t.matching start stop left right = s.matching start stop left right :=
  same.alike.matching reveals_id start stop left right

/-! ## Headers and braces -/

theorem header (kind : BlockKind) (range : TokenRange) :
    t.header kind range = s.header kind range :=
  same.alike.header reveals_id kind fun k _ _ _ => same.token? k

theorem kindAt (i : Nat) : t.kindAt i = s.kindAt i := by
  rw [Source.kindAt, same.token?, Source.kindAt]

/-! ## Segments -/

theorem blockAt (i opening closing : Nat) : t.blockAt i opening closing = s.blockAt i opening closing := by
  simp only [Source.blockAt, same.kindAt, same.header]

theorem scanFrom (limit : Option Nat) (depth i stop : Nat) :
    t.scanFrom limit depth i stop = s.scanFrom limit depth i stop := by
  induction depth, i, stop using s.scan_induction with
  | done depth i stop done => rw [scanFrom_end done, scanFrom_end done]
  | newline depth i stop inside newline ih =>
    rw [scanFrom_newline inside newline, same.alike.scanFrom_newline reveals_id inside newline, ih]
  | line depth i stop inside line opens ahead ih =>
    rw [scanFrom_line inside line opens, same.alike.scanFrom_line reveals_id inside line opens, ih]
  | unclosed depth i stop opening inside line opens open_ =>
    rw [scanFrom_unterminated inside line opens open_,
      same.alike.scanFrom_unterminated reveals_id inside line opens open_]
  | block depth i stop opening closing inside line opens closes _ _ _ inner later =>
    have children : t.blockChildren limit depth i opening closing =
        s.blockChildren limit depth i opening closing := by
      rw [blockChildren, blockChildren, same.kindAt, inner]
    rw [scanFrom_block inside line opens closes,
      same.alike.scanFrom_block reveals_id inside line opens closes, children, later, same.blockAt]

theorem scanWithin (limit : Option Nat) : t.scanWithin limit = s.scanWithin limit := by
  rw [Source.scanWithin, same.size, same.scanFrom, Source.scanWithin]

/-! ## Settings, notes and names -/

theorem splitCommas (range : TokenRange) : t.splitCommas range = s.splitCommas range := by
  induction size : range.stop - range.start using Nat.strongRecOn generalizing range with
  | ind n ih =>
  have comma' := same.findOutside? .openParen .closeParen range (·.isMark .comma)
  cases comma : s.findOutside? .openParen .closeParen range (·.isMark .comma) with
  | none =>
    rw [comma] at comma'
    rw [splitCommas_of_none comma, splitCommas_of_none comma']
  | some i =>
    rw [comma] at comma'
    have bounds := findOutside?_bounds comma
    rw [splitCommas_of_some comma, splitCommas_of_some comma',
      ih _ (by simp only; omega) ⟨i + 1, range.stop⟩ rfl]

theorem settings (range : TokenRange) : t.settings range = s.settings range := by
  have setting (item : TokenRange) : t.settingOf item = s.settingOf item := by
    simp only [settingOf, same.tokens, same.token?, same.isMark]
  rw [Source.settings, Source.settings, same.splitCommas, funext setting]

theorem quotedText (value : TokenRange) : t.quotedText value = s.quotedText value := by
  rw [Source.quotedText, same.token?, Source.quotedText]

theorem blockNote (block : Block) : t.blockNote block = s.blockNote block := by
  rw [Source.blockNote, same.tokens, Source.blockNote]

theorem noteLine? (line : TokenRange) : t.noteLine? line = s.noteLine? line := by
  rw [Source.noteLine?, same.isKeyword, same.isMark, same.quotedText, Source.noteLine?]

theorem shortForm? (line : TokenRange) : t.shortForm? line = s.shortForm? line := by
  simp only [Source.shortForm?, same.isKeyword, same.token?, same.isMark]

theorem columnReference? (value : TokenRange) :
    t.columnReference? value = s.columnReference? value := by
  rw [Source.columnReference?, same.token?, Source.columnReference?]

theorem columnSettings (column : String) (range : TokenRange) :
    t.columnSettings column range = s.columnSettings column range := by
  simp only [Source.columnSettings, same.find?, same.matching, same.settings]

theorem indexHead (line : TokenRange) : t.indexHead line = s.indexHead line := by
  simp only [Source.indexHead, same.token?, same.matching, same.tokens]

theorem indexSettings (next stop : Nat) : t.indexSettings next stop = s.indexSettings next stop := by
  simp only [Source.indexSettings, same.isMark, same.settings, same.matching]

/-! ## Statements -/

theorem lineStatement (topLevel : Bool) (line : TokenRange) :
    t.lineStatement topLevel line = s.lineStatement topLevel line := by
  rw [Source.lineStatement, same.shortForm?, Source.lineStatement]

theorem statements (dropped : List Nat) (topLevel : Bool) (segments : List Segment) :
    t.statements dropped topLevel segments = s.statements dropped topLevel segments := by
  induction segments using Segment.tree_induction generalizing topLevel with
  | nil => rfl
  | line range rest ih =>
    rw [Source.statements, Source.statements, ih, segmentStatements, segmentStatements,
      same.lineStatement]
  | block b children rest inner ih =>
    rw [Source.statements, Source.statements, ih, segmentStatements, segmentStatements, inner]

end SameTokens

end Dbml
