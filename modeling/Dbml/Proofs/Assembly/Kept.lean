import Dbml.Proofs.Assembly.Discovery
import Dbml.Proofs.Assembly.FirstDeclaration
import Mathlib.Data.List.Forall2
import Mathlib.Data.List.Induction

/-!
# The tables that are kept

Each table of a database with the block that declares it and the group block around that. Main
statements: the tables are what the kept declarations amount to (`tables_ofSegments`), and the
relationships of columns are those of the kept declarations, in their order
(`relationships_ofSegments`).
-/

namespace Dbml

/-! ## The first of each key -/

/-- The elements without those whose key an earlier one has. -/
def firstsBy {α : Type} (key : α → String) (xs : List α) : List α :=
  xs.foldl (fun kept x => if kept.any (key · == key x) then kept else kept ++ [x]) []

section FirstsBy

variable {α β : Type} {key : α → String}

theorem firstsBy_concat (xs : List α) (last : α) :
    firstsBy key (xs ++ [last]) =
      if (firstsBy key xs).any (key · == key last) then firstsBy key xs
      else firstsBy key xs ++ [last] := by
  simp [firstsBy]

theorem mem_of_mem_firstsBy {xs : List α} {x : α} (kept : x ∈ firstsBy key xs) : x ∈ xs := by
  induction xs using List.reverseRecOn with
  | nil => cases kept
  | append_singleton xs last ih =>
    rw [firstsBy_concat] at kept
    split at kept
    · exact List.mem_append_left _ (ih kept)
    · rcases List.mem_append.1 kept with old | new
      · exact List.mem_append_left _ (ih old)
      · exact List.mem_append_right _ new

/-- Elements may be changed in all but their keys before or after the first ones are chosen. -/
theorem map_firstsBy {f : β → α} {key' : β → String} (same : ∀ x, key (f x) = key' x)
    (xs : List β) : (firstsBy key' xs).map f = firstsBy key (xs.map f) := by
  induction xs using List.reverseRecOn with
  | nil => rfl
  | append_singleton xs last ih =>
    rw [List.map_append, List.map_singleton, firstsBy_concat, firstsBy_concat, ← ih, same,
      List.any_map, apply_ite (List.map f), List.map_append, List.map_singleton]
    simp only [Function.comp_def, same]

end FirstsBy

theorem Declaration.firsts_eq_firstsBy (declarations : List Declaration) :
    firsts declarations = firstsBy Declaration.key declarations := rfl

/-- What stands on the right of related lists has a partner on the left. -/
theorem exists_of_mem_of_forall₂ {α β : Type} {R : α → β → Prop} {xs : List α} {ys : List β}
    (related : List.Forall₂ R xs ys) {y : β} (listed : y ∈ ys) : ∃ x ∈ xs, R x y := by
  induction related with
  | nil => cases listed
  | cons own _ ih =>
    rcases List.mem_cons.1 listed with rfl | later
    · exact ⟨_, List.mem_cons_self, own⟩
    · obtain ⟨x, there, holds⟩ := ih later
      exact ⟨x, List.mem_cons_of_mem _ there, holds⟩

/-! ## Where tables are declared -/

/-- A table block and the group block it stands in, if any. -/
structure TableSite extends TableBlock where
  group : Option Block

/-- Whether the block stands in a group without a name. -/
def TableSite.isUngrouped (site : TableSite) : Bool :=
  site.group.any (·.header.name?.isNone)

/-- A table and where it is declared. -/
structure SitedTable where
  site : TableSite
  table : DeclaredTable

namespace SitedTable

def key (sited : SitedTable) : String :=
  sited.table.key

def declaration (sited : SitedTable) : Declaration :=
  ⟨sited.table, sited.site.isUngrouped⟩

end SitedTable

namespace Segment

/-- The table blocks of a group, with the group. -/
def groupSites : Segment → List TableSite
  | .block b children =>
    if b.kind = .tableGroup then (children.filterMap tableBlock?).map (⟨·, some b⟩) else []
  | .line _ => []

/-- The table blocks of a document with their groups, in the order of discovery. -/
def tableSites (segments : List Segment) : List TableSite :=
  segments.flatMap groupSites ++ (segments.filterMap tableBlock?).map (⟨·, none⟩)

theorem map_groupSites (x : Segment) : (groupSites x).map (·.toTableBlock) = groupBlocks x := by
  cases x with
  | line range => rfl
  | block b children =>
    rw [groupSites, groupBlocks, apply_ite (List.map _), List.map_map]
    simp [Function.comp_def]

theorem map_tableSites (segments : List Segment) :
    (tableSites segments).map (·.toTableBlock) = discovered segments := by
  rw [tableSites, discovered, List.map_append, List.map_flatMap, List.map_map]
  simp [Function.comp_def, map_groupSites]

end Segment

open Segment

namespace Source

variable {s : Source} {segments : List Segment}

/-- The tables that are declared in the sites. -/
def sitedTables (s : Source) (sites : List TableSite) : List SitedTable :=
  sites.filterMap fun site => (s.declared? site.toTableBlock).map fun table => ⟨site, table⟩

/-- The tables that a document declares and that are kept, in the order of discovery. -/
def keptTables (s : Source) (segments : List Segment) : List SitedTable :=
  firstsBy SitedTable.key (s.sitedTables (tableSites segments))

/-- The block of a kept table declares it. -/
theorem declared?_of_mem_keptTables {sited : SitedTable} (kept : sited ∈ s.keptTables segments) :
    s.declared? sited.site.toTableBlock = some sited.table := by
  obtain ⟨site, -, declared⟩ := List.mem_filterMap.1 (mem_of_mem_firstsBy kept)
  obtain ⟨table, here, rfl⟩ := Option.map_eq_some_iff.1 declared
  exact here

/-- A segment that is read as a table block declares what its block does. -/
theorem declares_eq (s : Source) (ungrouped : Bool) (x : Segment) :
    s.declares ungrouped x =
      (x.tableBlock?.bind s.declared?).toList.map fun table => ⟨table, ungrouped⟩ := by
  cases x with
  | line range => rfl
  | block b children =>
    rw [declares, tableBlock?]
    split <;> rfl

theorem flatMap_declares (s : Source) (ungrouped : Bool) (group : Option Block)
    (same : group.any (·.header.name?.isNone) = ungrouped) (segments : List Segment) :
    segments.flatMap (s.declares ungrouped) =
      (s.sitedTables ((segments.filterMap tableBlock?).map (⟨·, group⟩))).map
        SitedTable.declaration := by
  induction segments with
  | nil => rfl
  | cons x rest ih =>
    rw [List.flatMap_cons, ih, declares_eq]
    cases read : x.tableBlock? with
    | none => simp [read]
    | some found =>
      cases declared : s.declared? found with
      | none => simp [read, sitedTables, declared]
      | some table =>
        simp [read, sitedTables, declared, SitedTable.declaration,
          TableSite.isUngrouped, same]

theorem declarations_eq (s : Source) (segments : List Segment) :
    s.declarations segments =
      (s.sitedTables (tableSites segments)).map SitedTable.declaration := by
  have groups : segments.flatMap s.groupDeclares =
      (s.sitedTables (segments.flatMap groupSites)).map SitedTable.declaration := by
    induction segments with
    | nil => rfl
    | cons x rest ih =>
      rw [List.flatMap_cons, ih, List.flatMap_cons, sitedTables, sitedTables,
        List.filterMap_append, List.map_append]
      congr 1
      cases x with
      | line range => rfl
      | block b children =>
        rw [groupDeclares, groupSites]
        split
        · exact flatMap_declares s _ (some b) rfl children
        · rfl
  rw [declarations, tableSites, groups, flatMap_declares s false none rfl, sitedTables,
    sitedTables, sitedTables, List.filterMap_append, List.map_append]

theorem firsts_declarations (s : Source) (segments : List Segment) :
    Declaration.firsts (s.declarations segments) =
      (s.keptTables segments).map SitedTable.declaration := by
  rw [declarations_eq, Declaration.firsts_eq_firstsBy, keptTables]
  exact (map_firstsBy (fun _ => rfl) _).symm

theorem map_sitedTables (s : Source) (sites : List TableSite) :
    (s.sitedTables sites).map (·.table) = (sites.map (·.toTableBlock)).filterMap s.declared? := by
  rw [sitedTables, List.map_filterMap, List.filterMap_map]
  refine List.filterMap_congr fun site _ => ?_
  simp [Function.comp_def]

theorem firstsBy_declared (s : Source) (segments : List Segment) :
    firstsBy DeclaredTable.key ((discovered segments).filterMap s.declared?) =
      (s.keptTables segments).map (·.table) := by
  rw [← map_tableSites, ← map_sitedTables, keptTables]
  exact (map_firstsBy (fun _ => rfl) _).symm

end Source

namespace Assembly

variable {s : Source} {segments : List Segment}

/-- The tables of an assembly are what the kept declarations amount to. -/
theorem tables_ofSegments (s : Source) (segments : List Segment) :
    (ofSegments s segments).value.tables = (s.keptTables segments).map fun sited =>
      (ofSegments s segments).value.settle sited.declaration := by
  rw [(consistent_ofSegments s segments).tables, Source.firsts_declarations, List.map_map]
  rfl

/-- What holds of a declared table and any table that it describes holds of the kept tables and the
tables of the database. -/
theorem forall₂_keptTables {R : SitedTable → Table → Prop} (s : Source) (segments : List Segment)
    (described : ∀ sited table, s.declared? sited.site.toTableBlock = some sited.table →
      sited.table.Describes table → R sited table) :
    List.Forall₂ R (s.keptTables segments) (s.assemble segments).value.tables := by
  show List.Forall₂ R _ (ofSegments s segments).value.tables
  rw [tables_ofSegments, List.forall₂_map_right_iff, List.forall₂_same]
  intro sited kept
  apply described
  · exact Source.declared?_of_mem_keptTables kept
  · exact describes_settle _ sited.declaration

/-- What an assembly that has met the blocks has of their tables. -/
structure Gathers (s : Source) (a : Assembly) (met : List TableBlock) : Prop where
  keys : a.tables.map (·.key) =
    (firstsBy DeclaredTable.key (met.filterMap s.declared?)).map (·.key)
  relationships : a.relationships =
    (firstsBy DeclaredTable.key (met.filterMap s.declared?)).flatMap (·.relationships)

theorem Gathers.isDefined_eq {a : Assembly} {met : List TableBlock} (gathers : Gathers s a met)
    (key : String) : a.isDefined key =
      (firstsBy DeclaredTable.key (met.filterMap s.declared?)).any (·.key == key) := by
  have keys := congrArg (List.any · (· == key)) gathers.keys
  rw [isDefined]
  simpa only [List.any_map, Function.comp_def] using keys

theorem gathers_invariant (s : Source) : TableInvariant s (Gathers s) where
  frame := by
    intro a b met gathers tables relationships _
    exact ⟨by rw [tables]; exact gathers.keys, by rw [relationships]; exact gathers.relationships⟩
  drop := by
    -- A block that declares nothing or a known key adds no first of its key.
    intro a met found gathers taken
    have same : firstsBy DeclaredTable.key ((met ++ [found]).filterMap s.declared?) =
        firstsBy DeclaredTable.key (met.filterMap s.declared?) := by
      cases declared : s.declared? found with
      | none => rw [List.filterMap_append, List.filterMap_cons_none declared]; simp
      | some table =>
        have known := taken table declared
        rw [gathers.isDefined_eq] at known
        rw [List.filterMap_append, List.filterMap_cons_some declared, List.filterMap_nil,
          firstsBy_concat, if_pos known]
    exact ⟨by rw [same]; exact gathers.keys, by rw [same]; exact gathers.relationships⟩
  add := by
    intro a met found table owner gathers declared fresh
    have more : firstsBy DeclaredTable.key ((met ++ [found]).filterMap s.declared?) =
        firstsBy DeclaredTable.key (met.filterMap s.declared?) ++ [table] := by
      rw [gathers.isDefined_eq] at fresh
      rw [List.filterMap_append, List.filterMap_cons_some declared, List.filterMap_nil,
        firstsBy_concat, if_neg (by simp [fresh])]
    refine ⟨?_, ?_⟩
    · rw [more, List.map_append, ← gathers.keys, addTable, List.map_append]
      rfl
    · rw [more, List.flatMap_append, ← gathers.relationships, List.flatMap_singleton]
      rfl

/-- The relationships of columns are those of the kept tables. -/
theorem relationships_ofSegments (s : Source) (segments : List Segment) :
    (ofSegments s segments).value.relationships =
      (s.keptTables segments).flatMap (·.table.relationships) := by
  have gathers := (gathers_invariant s).ofSegments ⟨rfl, rfl⟩ segments
  rw [gathers.relationships, Source.firstsBy_declared, List.flatMap_map]

end Assembly

end Dbml
