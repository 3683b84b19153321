import Dbml.Proofs.Joining.Pieces
import Dbml.Proofs.Source.Bracket
import Dbml.Proofs.Table.ColumnChanges

/-!
# Items of a list of settings

The settings between brackets are the pieces between the commas that stand in no parentheses. Where
such a piece stands does not matter for what it does to a column. Main statement: `Listed.changes`.
-/

namespace Dbml

open Source

/-! ## Items -/

namespace Piece

def tokens (piece : Piece) : List Token :=
  piece.source.tokens piece.source.all

/-- The setting that the piece is by itself. -/
def setting (piece : Piece) : Setting :=
  piece.source.settingOf piece.source.all

/-- What the piece does to a column. -/
def change (piece : Piece) : ColumnChange :=
  piece.source.columnChange piece.setting

/-- The piece can be an item of a list: it is not empty, its parentheses and brackets close each
other, and all commas in it stand in parentheses. -/
structure IsItem (piece : Piece) : Prop where
  nonempty : 0 < piece.source.size
  parens : Balanced .openParen .closeParen piece.tokens
  brackets : Balanced .openBracket .closeBracket piece.tokens
  whole : piece.source.findOutside? .openParen .closeParen piece.source.all (·.isMark .comma) = none

instance (piece : Piece) : Decidable piece.IsItem :=
  decidable_of_iff (0 < piece.source.size ∧ Balanced .openParen .closeParen piece.tokens ∧
      Balanced .openBracket .closeBracket piece.tokens ∧
      piece.source.findOutside? .openParen .closeParen piece.source.all (·.isMark .comma) = none)
    ⟨fun ⟨nonempty, parens, brackets, whole⟩ => ⟨nonempty, parens, brackets, whole⟩,
      fun ⟨nonempty, parens, brackets, whole⟩ => ⟨nonempty, parens, brackets, whole⟩⟩

theorem tokens_length (piece : Piece) : piece.tokens.length = piece.source.size := by
  rw [tokens, tokens_all, List.length_map, Array.length_toList, Source.size]

end Piece

namespace Source

variable {s t : Source} {i j stop : Nat} {range : TokenRange}

theorem all_shift (t : Source) (i : Nat) : t.all.shift i = ⟨i, i + t.size⟩ := by
  simp [TokenRange.shift, all, Nat.add_comm]

theorem StandsAt.copied (stands : t.StandsAt s i) : Copied t s (· + i) i t.all := by
  obtain ⟨before, embedded⟩ := stands
  exact embedded.copied

theorem StandsAt.reads (stands : t.StandsAt s i) : s.Reads i (t.tokens t.all) := by
  rw [← stands.copied.tokens, all_shift]
  exact reads_tokens s i (i + t.size)

end Source

namespace Piece

variable {s : Source} {i : Nat} {piece : Piece}

/-- An item that stands in a source does there to a column what it does by itself. -/
theorem IsItem.change_eq (item : piece.IsItem) (stands : piece.source.StandsAt s i) :
    s.columnChange (s.settingOf ⟨i, i + piece.source.size⟩) = piece.change := by
  have some_token : piece.source.all.isEmpty = false :=
    decide_eq_false (Nat.not_le.2 item.nonempty)
  have copied := stands.copied.settingOf some_token
  rw [all_shift] at copied
  exact copied.columnChange

/-- No comma of an item is found between items. -/
theorem IsItem.findOutsideFrom_eq (item : piece.IsItem) (stands : piece.source.StandsAt s i)
    (count : Nat) :
    s.findOutsideFrom .openParen .closeParen (·.isMark .comma) 0 i (piece.source.size + count) =
      s.findOutsideFrom .openParen .closeParen (·.isMark .comma) 0 (i + piece.source.size)
        count := by
  have none := stands.copied.findOutside? .openParen .closeParen (·.isMark .comma)
  rw [item.whole, all_shift, findOutside?, TokenRange.size, Nat.add_sub_cancel_left] at none
  have reads : s.Reads i piece.tokens := stands.reads
  rw [← piece.tokens_length] at none ⊢
  rw [findOutsideFrom_append (by decide) reads item.parens.staysOpen none, item.parens.closed,
    Nat.add_sub_cancel]

end Piece

namespace Listed

variable {s : Source} {i stop : Nat} {pieces : List Piece}

/-- The tokens of pieces with commas between them. -/
def tokens (pieces : List Piece) : List Token :=
  [.mark .comma].intercalate (pieces.map Piece.tokens)

theorem tokens_cons (piece : Piece) {pieces : List Piece} (nonempty : pieces ≠ []) :
    tokens (piece :: pieces) = piece.tokens ++ .mark .comma :: tokens pieces := by
  rw [tokens, List.map_cons, List.intercalate_cons_of_ne_nil (by simpa using nonempty),
    List.append_assoc]
  rfl

theorem nonempty (listed : Listed s i pieces stop) : pieces ≠ [] := by
  cases listed with
  | last => simp
  | cons => simp

theorem reads (listed : Listed s i pieces stop) :
    s.Reads i (tokens pieces ++ [.mark .closeBracket]) ∧ stop = i + (tokens pieces).length := by
  induction listed with
  | @last i piece stands closes =>
    have single : tokens [piece] = piece.tokens := by simp [tokens]
    rw [single, piece.tokens_length]
    have reads : s.Reads i piece.tokens := stands.reads
    refine ⟨reads_append.2 ⟨reads, ?_⟩, rfl⟩
    rw [piece.tokens_length]
    exact ⟨closes, trivial⟩
  | @cons i stop piece pieces stands comma rest ih =>
    obtain ⟨later, size⟩ := ih
    have reads : s.Reads i piece.tokens := stands.reads
    rw [tokens_cons piece rest.nonempty, List.append_assoc]
    constructor
    · refine reads_append.2 ⟨reads, ?_⟩
      rw [piece.tokens_length]
      exact ⟨comma, later⟩
    · rw [List.length_append, List.length_cons, piece.tokens_length, size]
      omega

theorem balanced (items : ∀ piece ∈ pieces, piece.IsItem) :
    Balanced .openBracket .closeBracket (tokens pieces) := by
  induction pieces with
  | nil => exact balanced_nil
  | cons piece rest ih =>
    have here := (items piece List.mem_cons_self).brackets
    by_cases last : rest = []
    · rw [last]
      simpa [tokens] using here
    · rw [tokens_cons piece last]
      have later := ih fun piece listed => items piece (List.mem_cons_of_mem _ listed)
      have comma : Balanced .openBracket .closeBracket [.mark .comma] :=
        balanced_of_others (by simp)
      exact balanced_append here (balanced_append comma later)

/-- The items of a list change a column one after the other, each as by itself. -/
theorem changes (listed : Listed s i pieces stop) (items : ∀ piece ∈ pieces, piece.IsItem) :
    (s.settings ⟨i, stop⟩).map s.columnChange = pieces.map Piece.change := by
  induction listed with
  | @last i piece stands closes =>
    have item := items piece List.mem_cons_self
    have some_token : i < i + piece.source.size := Nat.lt_add_of_pos_right item.nonempty
    have none : s.findOutside? .openParen .closeParen ⟨i, i + piece.source.size⟩
        (·.isMark .comma) = none := by
      rw [findOutside?, TokenRange.size, Nat.add_sub_cancel_left, ← Nat.add_zero piece.source.size]
      exact item.findOutsideFrom_eq stands 0
    rw [settings_of_none none (decide_eq_false (Nat.not_le.2 some_token)), List.map_singleton,
      item.change_eq stands]
    rfl
  | @cons i stop piece pieces stands comma rest ih =>
    have item := items piece List.mem_cons_self
    have some_token : i < i + piece.source.size := Nat.lt_add_of_pos_right item.nonempty
    have behind := rest.reads.2
    have found : s.findOutside? .openParen .closeParen ⟨i, stop⟩ (·.isMark .comma) =
        some (i + piece.source.size) := by
      obtain ⟨count, size⟩ : ∃ count, stop - i = piece.source.size + (count + 1) :=
        ⟨stop - i - piece.source.size - 1, by omega⟩
      rw [findOutside?, TokenRange.size, size, item.findOutsideFrom_eq stands,
        findOutsideFrom_here comma (by decide) (by decide) rfl]
    rw [settings_of_some found some_token, List.map_cons, item.change_eq stands,
      ih fun piece listed => items piece (List.mem_cons_of_mem _ listed)]
    rfl

end Listed

end Dbml
