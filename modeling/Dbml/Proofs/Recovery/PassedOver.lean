import Dbml.Proofs.Finding.Silent
import Dbml.Proofs.Segment.Places

/-!
# What is passed over

While the tables and groups of a document are read, a line or block is passed over for a cause that
only depends on the segment and the block around it. Main statement: what is noted to be skipped is
noted at the first token of a segment that is passed over for the cause (`tells_of_ofSegments`).
-/

namespace Dbml

open Segment

namespace Source

/-! ## Segments that are passed over -/

/-- The segment in the place is passed over for the cause while the tables and groups are read. -/
inductive PassesOver (s : Source) : Place → Cause → Prop
  | tableLine {table : Block} {line : TokenRange} (kind : table.kind = .table)
    (note : s.noteLine? line = none) (reference : s.shortForm? line = none)
    (column : s.columnHead? line = none) :
    s.PassesOver ⟨some table, .line line⟩ .unknownTableLine
  | groupLine {group : Block} {line : TokenRange} (kind : group.kind = .tableGroup)
    (note : s.noteLine? line = none) (reference : s.shortForm? line = none)
    (member : nameParts (s.tokens line) = none) :
    s.PassesOver ⟨some group, .line line⟩ .unknownGroupLine
  | index {indexes : Block} {line : TokenRange} {fault : IndexFault}
    (kind : indexes.kind = .indexes) (rejected : s.indexHead line = .error fault) :
    s.PassesOver ⟨some indexes, .line line⟩ (.rejectedIndex fault)
  | unsupported {block : Block} {children : List Segment} (table : block.kind ≠ .table)
    (project : block.kind ≠ .project) (group : block.kind ≠ .tableGroup)
    (reference : block.kind ≠ .ref) :
    s.PassesOver ⟨none, .block block children⟩ (.unsupportedBlock block.kind)
  | inTable {table block : Block} {children : List Segment} (kind : table.kind = .table)
    (note : block.kind ≠ .note) (indexes : block.kind ≠ .indexes) (key : String) :
    s.PassesOver ⟨some table, .block block children⟩ (.unexpectedInTable block.kind key)
  | inGroup {group block : Block} {children : List Segment} (kind : group.kind = .tableGroup)
    (table : block.kind ≠ .table) (note : block.kind ≠ .note) :
    s.PassesOver ⟨some group, .block block children⟩ (.unexpectedInGroup block.kind)

/-- The finding tells a segment of the places that is passed over for its cause. -/
def Tells (s : Source) (places : List Place) (finding : Finding) : Prop :=
  ∃ place ∈ places, place.start = finding.position ∧ s.PassesOver place finding.cause

variable {s : Source} {finding : Finding} {places others : List Place} {block : Block}
  {children segments : List Segment} {x : Segment}

theorem Tells.mono (tells : s.Tells places finding) (part : places ⊆ others) :
    s.Tells others finding := by
  obtain ⟨place, here, same, passed⟩ := tells
  exact ⟨place, part here, same, passed⟩

/-! ## Tables -/

theorem exists_of_mem_index? {line : TokenRange}
    (noted : finding ∈ (s.index? line).findings) (skips : finding.cause.skips = true) :
    ∃ fault, s.indexHead line = .error fault ∧ finding = ⟨line.start, .rejectedIndex fault⟩ := by
  unfold index? at noted
  cases head : s.indexHead line with
  | error fault =>
    rw [head] at noted
    exact ⟨fault, rfl, List.mem_singleton.1 noted⟩
  | ok found =>
    rw [head] at noted
    have settings := Noted.silent_foldlM (s.indexSettings found.2 line.stop)
      ({ columns := found.1 } : Index) (silent_applyIndexSetting (s := s))
    rw [settings.bind (Noted.silent_pure _) finding noted] at skips
    cases skips

theorem tells_of_addIndexes {table : DeclaredTable} (kind : block.kind = .indexes)
    (noted : finding ∈ (s.addIndexes table children).findings)
    (skips : finding.cause.skips = true) :
    s.Tells (Segment.places (some block) children) finding := by
  induction children generalizing table with
  | nil => cases noted
  | cons x rest ih =>
    have behind : Segment.places (some block) rest ⊆ Segment.places (some block) (x :: rest) := by
      simp [Segment.places]
    cases x with
    | line line =>
      rw [addIndexes, Noted.bind_findings] at noted
      rcases List.mem_append.1 noted with here | later
      · obtain ⟨fault, rejected, rfl⟩ := exists_of_mem_index? here skips
        exact ⟨⟨some block, .line line⟩, mem_places (by simp), rfl, .index kind rejected⟩
      · exact (ih later).mono behind
    | block inner children =>
      rw [addIndexes] at noted
      exact (ih noted).mono behind

theorem tells_of_applyTableSegment {table : DeclaredTable} (kind : block.kind = .table)
    (noted : finding ∈ (s.applyTableSegment table x).findings)
    (skips : finding.cause.skips = true) :
    s.Tells (⟨some block, x⟩ :: x.inside) finding := by
  have self : (⟨some block, x⟩ : Place) ∈ (⟨some block, x⟩ : Place) :: x.inside := by simp
  cases x with
  | line line =>
    rw [applyTableSegment, applyTableLine] at noted
    cases note : s.noteLine? line with
    | some found =>
      rw [note] at noted
      cases found with
      | some text => cases noted
      | none =>
        rw [List.mem_singleton.1 noted] at skips
        cases skips
    | none =>
      rw [note] at noted
      dsimp only at noted
      split at noted
      · cases noted
      · rename_i other
        rw [Noted.bind_findings] at noted
        rcases List.mem_append.1 noted with here | later
        · rw [silent_column? _ _ finding here] at skips
          cases skips
        · split at later
          · cases later
          · rename_i column
            rw [List.mem_singleton.1 later]
            refine ⟨_, self, rfl, .tableLine kind note (by simpa using other) ?_⟩
            unfold column? at column
            split at column
            · assumption
            · cases column
  | block inner children =>
    rw [applyTableSegment] at noted
    split at noted
    · cases noted
    · rename_i innerKind
      obtain ⟨place, here, told⟩ := tells_of_addIndexes innerKind noted skips
      exact ⟨place, List.mem_cons_of_mem _ here, told⟩
    · rename_i note indexes
      rw [List.mem_singleton.1 noted]
      exact ⟨_, self, rfl, .inTable kind note indexes table.key⟩

theorem tells_of_declaredTable (kind : block.kind = .table)
    (noted : finding ∈ (s.declaredTable block children).findings)
    (skips : finding.cause.skips = true) :
    s.Tells (Segment.places (some block) children) finding := by
  unfold declaredTable at noted
  split at noted
  · rw [List.mem_singleton.1 noted] at skips
    cases skips
  · split at noted
    · rw [List.mem_singleton.1 noted] at skips
      cases skips
    · rw [Noted.bind_findings] at noted
      rcases List.mem_append.1 noted with settings | body
      · rw [Noted.silent_foldlM _ _ silent_applyTableSetting finding settings] at skips
        cases skips
      · rw [Noted.bind_findings, Noted.pure_findings, List.append_nil] at body
        obtain ⟨table, x, listed, found⟩ := Noted.exists_of_mem_foldlM body
        refine (tells_of_applyTableSegment kind found skips).mono (List.cons_subset.2 ⟨?_, ?_⟩)
        · exact mem_places listed
        · exact inside_subset listed

end Source

/-! ## Assemblies -/

namespace Assembly

open Source

variable {s : Source} {a : Assembly} {finding : Finding} {block : Block}
  {children segments : List Segment} {x : Segment}

theorem tells_of_placeTable {place : DeclaredTable → Noted Assembly} (kind : block.kind = .table)
    (silent : ∀ table, (place table).Silent)
    (noted : finding ∈ (placeTable s a block children place).findings)
    (skips : finding.cause.skips = true) : s.Tells (places (some block) children) finding := by
  unfold placeTable at noted
  rw [Noted.bind_findings] at noted
  rcases List.mem_append.1 noted with declared | placed
  · exact tells_of_declaredTable kind declared skips
  · split at placed
    · cases placed
    · split at placed
      · rw [List.mem_singleton.1 placed] at skips
        cases skips
      · rw [silent _ finding placed] at skips
        cases skips

theorem tells_of_addGroupTable {group : Option Nat} (kind : block.kind = .table)
    (noted : finding ∈ (addGroupTable s group a block children).findings)
    (skips : finding.cause.skips = true) : s.Tells (places (some block) children) finding := by
  refine tells_of_placeTable kind (fun table => ?_) noted skips
  cases group with
  | none => exact Noted.silent_pure _
  | some group => exact (silent_claimAt _ _ _ _).bind (Noted.silent_pure _)

theorem tells_of_addTopTable (kind : block.kind = .table)
    (noted : finding ∈ (addTopTable s a block children).findings)
    (skips : finding.cause.skips = true) : s.Tells (places (some block) children) finding :=
  tells_of_placeTable kind (fun _ => Noted.silent_pure _) noted skips

theorem tells_of_applyGroupSegment {group : Option Nat} {o : OpenGroup}
    (kind : block.kind = .tableGroup)
    (noted : finding ∈ (applyGroupSegment s group o x).findings)
    (skips : finding.cause.skips = true) : s.Tells (⟨some block, x⟩ :: x.inside) finding := by
  have self : (⟨some block, x⟩ : Place) ∈ (⟨some block, x⟩ : Place) :: x.inside := by simp
  cases x with
  | line line =>
    rw [applyGroupSegment.eq_def] at noted
    dsimp only at noted
    cases note : s.noteLine? line with
    | some found => rw [note] at noted; cases noted
    | none =>
      rw [note] at noted
      dsimp only at noted
      split at noted
      · cases noted
      · rename_i other
        split at noted
        · rw [(silent_claimAt _ _ _ _).bind (Noted.silent_pure _) finding noted] at skips
          cases skips
        · cases noted
        · rename_i member
          rw [List.mem_singleton.1 noted]
          exact ⟨_, self, rfl, .groupLine kind note (by simpa using other) member⟩
  | block inner children =>
    rw [applyGroupSegment] at noted
    split at noted
    · rename_i innerKind
      rw [Noted.bind_findings, Noted.pure_findings, List.append_nil] at noted
      obtain ⟨place, here, told⟩ := tells_of_addGroupTable innerKind noted skips
      exact ⟨place, List.mem_cons_of_mem _ here, told⟩
    · cases noted
    · rename_i table note
      rw [List.mem_singleton.1 noted]
      exact ⟨_, self, rfl, .inGroup kind table note⟩

theorem tells_of_addGroup (kind : block.kind = .tableGroup)
    (noted : finding ∈ (addGroup s a block children).findings)
    (skips : finding.cause.skips = true) : s.Tells (places (some block) children) finding := by
  have body : ∀ {group : Option Nat} {o : OpenGroup},
      finding ∈ (children.foldlM (applyGroupSegment s group) o).findings →
        s.Tells (places (some block) children) finding := by
    intro group o found
    obtain ⟨o', x, listed, here⟩ := Noted.exists_of_mem_foldlM found
    refine (tells_of_applyGroupSegment kind here skips).mono (List.cons_subset.2 ⟨?_, ?_⟩)
    · exact mem_places listed
    · exact inside_subset listed
  unfold addGroup at noted
  split at noted
  · dsimp only at noted
    rw [Noted.bind_findings, Noted.bind_findings, Noted.pure_findings, List.append_nil] at noted
    rcases List.mem_append.1 noted with opened | found
    · rw [silent_openGroup _ _ _ finding opened] at skips
      cases skips
    · exact body found
  · rw [Noted.bind_findings, Noted.bind_findings, Noted.pure_findings, List.append_nil] at noted
    rcases List.mem_append.1 noted with unnamed | found
    · rw [List.mem_singleton.1 unnamed] at skips
      cases skips
    · exact body found

theorem tells_of_applyGroup (noted : finding ∈ (applyGroup s a x).findings)
    (skips : finding.cause.skips = true) : s.Tells (⟨none, x⟩ :: x.inside) finding := by
  unfold applyGroup at noted
  split at noted
  · split at noted
    · rename_i kind
      obtain ⟨place, here, told⟩ := tells_of_addGroup kind noted skips
      exact ⟨place, List.mem_cons_of_mem _ here, told⟩
    · cases noted
  · cases noted

theorem tells_of_applyBlock (noted : finding ∈ (applyBlock s a x).findings)
    (skips : finding.cause.skips = true) : s.Tells (⟨none, x⟩ :: x.inside) finding := by
  unfold applyBlock at noted
  split at noted
  · rename_i block children
    split at noted
    · rename_i kind
      obtain ⟨place, here, told⟩ := tells_of_addTopTable kind noted skips
      exact ⟨place, List.mem_cons_of_mem _ here, told⟩
    · rw [silent_addProject _ _ _ finding noted] at skips
      cases skips
    · cases noted
    · cases noted
    · rename_i table project group reference
      rw [List.mem_singleton.1 noted]
      exact ⟨_, List.mem_cons_self, rfl, .unsupported table project group reference⟩
  · cases noted

theorem tells_of_ofSegments (noted : finding ∈ (ofSegments s segments).findings)
    (skips : finding.cause.skips = true) : s.Tells (places none segments) finding := by
  have part : ∀ x ∈ segments, (⟨none, x⟩ : Place) :: x.inside ⊆ places none segments :=
    fun x listed => List.cons_subset.2 ⟨mem_places listed, inside_subset listed⟩
  unfold ofSegments at noted
  rw [Noted.bind_findings] at noted
  rcases List.mem_append.1 noted with groups | blocks
  · obtain ⟨a, x, listed, here⟩ := Noted.exists_of_mem_foldlM groups
    exact (tells_of_applyGroup here skips).mono (part x listed)
  · obtain ⟨a, x, listed, here⟩ := Noted.exists_of_mem_foldlM blocks
    exact (tells_of_applyBlock here skips).mono (part x listed)

end Assembly

end Dbml
