import Dbml.Proofs.Keywords.Scanning
import Dbml.Proofs.Respacing.Tables

/-!
# Lines and blocks with other keywords

What a line, the body of a block or a whole table says does not depend on the letters of its
keywords. Main statements: `Kept.applyTableSegment`, and `Kept.declaredTable` for whole tables.
-/

namespace Dbml

open Source Noted

variable {s t : Source} {around : Option Block} {b : Block} {line range : TokenRange}
  {children : List Segment}

/-! ## What is read under the mask -/

namespace SameButCase

variable (same : SameButCase s t)

include same

theorem blockNote (block : Block) : t.blockNote block = s.blockNote block := by
  have first (ts : List Token) : ts.findSome? Token.quoted? = (ts.map Token.quoted?).findSome? id := by
    rw [List.findSome?_map]
    rfl
  rw [Source.blockNote, first, same.alike.map_tokens Token.quoted?_lowered, ← first, Source.blockNote]

theorem hasEmptyBody (block : Block) : t.hasEmptyBody block = s.hasEmptyBody block := by
  rw [Source.hasEmptyBody, same.span, same.span, Source.hasEmptyBody]

end SameButCase

/-! ## Lines -/

namespace Copied

theorem noteLine?_behind (same : SameButCase s t) (behind : Copied s t id 0 (line.drop 1)) :
    t.noteLine? line = s.noteLine? line := by
  have value : t.quotedText (line.drop 2) = s.quotedText (line.drop 2) := (behind.drop 1).quotedText
  rw [Source.noteLine?, same.isKeyword, same.isMark, value, Source.noteLine?]

theorem shortForm?_behind (same : SameButCase s t) (behind : Copied s t id 0 (line.drop 1)) :
    t.shortForm? line = s.shortForm? line := by
  have name : (if line.start + 1 < line.stop then (t.token? (line.start + 1)).bind Token.name?
      else none) =
      if line.start + 1 < line.stop then (s.token? (line.start + 1)).bind Token.name? else none := by
    split
    next inside => rw [behind.token (line.start + 1) (Nat.le_refl _) inside]
    · rfl
  simp only [Source.shortForm?, same.isKeyword, same.isMark, name]

end Copied

/-! ## Tables -/

/-- Steps that do the same to all elements of a list make the same fold. -/
theorem foldlM_congr {α β : Type} {f g : α → β → Noted α} {xs : List β}
    (step : ∀ x ∈ xs, ∀ a, g a x = f a x) (a : α) : xs.foldlM g a = xs.foldlM f a := by
  induction xs generalizing a with
  | nil => rfl
  | cons x xs ih =>
    obtain ⟨first, others⟩ := List.forall_mem_cons.1 step
    rw [List.foldlM_cons, List.foldlM_cons, first]
    exact congrArg _ (funext fun a => ih others a)

namespace Kept

theorem addIndexes (kind : b.kind = .indexes) (kept : ∀ x ∈ children, Kept s t (some b) x)
    (table : DeclaredTable) : t.addIndexes table children = s.addIndexes table children := by
  induction children generalizing table with
  | nil => rfl
  | cons x rest ih =>
    obtain ⟨first, others⟩ := List.forall_mem_cons.1 kept
    cases first with
    | @line _ range nonempty behind whole =>
      have plain : s.opensWithKeyword (some b) range = false := by
        simp only [opensWithKeyword, Option.map_some, kind]
      have index : t.index? range = s.index? range := ((whole plain).index? nonempty).eq
      rw [Source.addIndexes, Source.addIndexes, index]
      simp only [ih others]
    | block settings inner => rw [Source.addIndexes, Source.addIndexes, ih others]

theorem applyTableLine (same : SameButCase s t) (kind : b.kind = .table)
    (kept : Kept s t (some b) (.line line)) (table : DeclaredTable) :
    t.applyTableLine table line = s.applyTableLine table line := by
  cases kept with
  | line nonempty behind whole =>
    rw [Source.applyTableLine, Source.applyTableLine, behind.noteLine?_behind same,
      behind.shortForm?_behind same]
    cases note : s.noteLine? line with
    | some found => cases found <;> rfl
    | none =>
      cases short : (s.shortForm? line).isSome with
      | true => rfl
      | false =>
        have plain : s.opensWithKeyword (some b) line = false := by
          simp [opensWithKeyword, kind, note, short]
        have column : t.column? table.key line = s.column? table.key line :=
          ((whole plain).column? nonempty table.key).eq
        rw [column]

theorem applyTableSegment (same : SameButCase s t) (kind : b.kind = .table) {x : Segment}
    (kept : Kept s t (some b) x) (table : DeclaredTable) :
    t.applyTableSegment table x = s.applyTableSegment table x := by
  cases x with
  | line line => exact kept.applyTableLine same kind table
  | block inner children =>
    cases kept with
    | block settings within =>
      rw [Source.applyTableSegment, Source.applyTableSegment, same.blockNote]
      split
      · rfl
      next indexes => exact addIndexes indexes within table
      · rfl

/-- A table block with keywords in other letters declares the same table. -/
theorem declaredTable (same : SameButCase s t) (kind : b.kind = .table)
    (kept : Kept s t around (.block b children)) :
    t.declaredTable b children = s.declaredTable b children := by
  cases kept with
  | block settings inner =>
    have given := (moves_foldlM_same settings
      (fun given x y setting => setting.applyTableSetting given) {}).eq
    have body := foldlM_congr fun x listed table =>
      (inner x listed).applyTableSegment same kind table
    simp only [Source.declaredTable, same.hasEmptyBody, given, body]

end Kept

end Dbml
