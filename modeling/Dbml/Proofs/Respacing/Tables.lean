import Dbml.Proofs.Respacing.Lines
import Dbml.Proofs.Respacing.Segments

/-!
# Tables that move

A table block at its new place declares the same table, and what is noted about it is noted at the
new places of the tokens. Main statement: `Relocated.declaredTable`.
-/

namespace Dbml

open Source Noted

variable {s s' : Source} {place : Nat → Nat} {d : Nat} {line : TokenRange}
  {segment segment' : Segment} {children children' : List Segment}

/-! ## Indexes -/

theorem Relocated.addIndexes (moved : List.Forall₂ (Relocated s s' place) children children')
    (table : DeclaredTable) :
    Moves place (· = ·) (s.addIndexes table children) (s'.addIndexes table children') := by
  induction moved generalizing table with
  | nil => exact moves_pure rfl
  | cons first _ ih =>
    cases first with
    | line copied nonempty behind behind' =>
      exact (copied.index? nonempty).bind_same fun index => ih _
    | block same inner => exact ih table

/-! ## Lines and blocks of a body -/

theorem Copied.applyTableLine (copied : Copied s s' place d line)
    (nonempty : line.start < line.stop) (table : DeclaredTable) :
    Moves place (· = ·) (s.applyTableLine table line)
      (s'.applyTableLine table (line.shift d)) := by
  have here := (copied.place _ (Nat.le_refl _) nonempty).symm
  rw [Source.applyTableLine, Source.applyTableLine, copied.noteLine? nonempty,
    copied.shortForm? nonempty, Option.isSome_map]
  split
  · exact moves_pure rfl
  · exact moves_note_pure here _ rfl
  · split
    · exact moves_pure rfl
    · refine (copied.column? nonempty table.key).bind_same fun declared => ?_
      cases declared with
      | some declared => exact moves_pure rfl
      | none => exact moves_note_pure here _ rfl

theorem Relocated.applyTableSegment (moved : Relocated s s' place segment segment')
    (table : DeclaredTable) :
    Moves place (· = ·) (s.applyTableSegment table segment)
      (s'.applyTableSegment table segment') := by
  cases moved with
  | line copied nonempty behind behind' => exact copied.applyTableLine nonempty table
  | block same inner =>
    rw [Source.applyTableSegment, Source.applyTableSegment, same.kind, same.note]
    split
    · exact moves_pure rfl
    · exact Relocated.addIndexes inner table
    · exact moves_note_pure same.start _ rfl

/-! ## Whole tables -/

theorem Header.Copied.tableName? {header header' : Header}
    (copied : Header.Copied s s' place header header') :
    Source.tableName? header' = Source.tableName? header := by
  rw [Source.tableName?, Source.tableName?, copied.nameParts]

theorem Header.Copied.name? {header header' : Header}
    (copied : Header.Copied s s' place header header') : header'.name? = header.name? := by
  rw [Header.name?, Header.name?, copied.nameParts]

theorem SameBlock.declaredTable {b b' : Block} (same : SameBlock s s' place b b')
    (inner : List.Forall₂ (Relocated s s' place) children children') :
    Moves place (· = ·) (s.declaredTable b children) (s'.declaredTable b' children') := by
  rw [Source.declaredTable, Source.declaredTable, same.header.tableName?, same.header.aliasName,
    same.empty]
  cases Source.tableName? b.header with
  | none => exact moves_note_pure same.start _ rfl
  | some found =>
    obtain ⟨schema, name⟩ := found
    dsimp only
    split
    · exact moves_note_pure same.start _ rfl
    · refine Moves.bind_same ?_ fun given => ?_
      · exact moves_foldlM_same same.header.settings
          (fun settings x y setting => setting.applyTableSetting settings) _
      · refine Moves.bind_same ?_ fun table => moves_pure rfl
        exact moves_foldlM_same inner (fun table x y segment => segment.applyTableSegment table) _

end Dbml
