import Dbml.Proofs.Assembly.Declaration

/-!
# Ownership

What holds of an assembly at every step: the owners of keys and the members of groups say the same,
no group lists a key twice, and the tables are the first declarations of their keys, each finished
as a member of the group that owns its key. A table in a group without a name has no group, whoever
owns its key.
-/

namespace Dbml.Assembly

variable {s : Source} {a b : Assembly} {seen : List Declaration} {group : Nat} {key : String}

/-! ## The invariant -/

def home? (a : Assembly) (declaration : Declaration) : Option TableGroup :=
  if declaration.ungrouped then none else (a.owner? declaration.key).bind (a.groups[·]?)

/-- The table that a declaration amounts to. -/
def settle (a : Assembly) (declaration : Declaration) : Table :=
  declaration.table.finish ((a.home? declaration).map (·.id)) ((a.home? declaration).map (·.color))

@[simp] theorem settle_key (a : Assembly) (declaration : Declaration) :
    (a.settle declaration).key = declaration.key := rfl

/-- The invariant, for an assembly that has met the declarations. -/
structure Consistent (a : Assembly) (seen : List Declaration) : Prop where
  owner_iff : ∀ key group,
    a.owner? key = some group ↔ ∃ g, a.groups[group]? = some g ∧ key ∈ g.tables
  nodup : ∀ g ∈ a.groups, g.tables.Nodup
  tables : a.tables = (Declaration.firsts seen).map a.settle

/-- Whether a group owns each table outside the groups without a name. It is so while groups are
read, and no later step changes which one it is. -/
def Claimed (a : Assembly) (seen : List Declaration) : Prop :=
  ∀ declaration ∈ Declaration.firsts seen,
    declaration.ungrouped = false → (a.owner? declaration.key).isSome

/-- What a later assembly keeps of an earlier one as long as no table is added. -/
structure Extends (a b : Assembly) : Prop where
  tables : b.tables = a.tables
  owner : ∀ key group, a.owner? key = some group → b.owner? key = some group
  group : ∀ (i : Nat) (g : TableGroup), a.groups[i]? = some g →
    ∃ h, b.groups[i]? = some h ∧ h.id = g.id ∧ h.color = g.color

namespace Consistent

theorem empty : Consistent {} [] := by
  refine ⟨fun key group => ?_, by simp, rfl⟩
  simp [owner?]

theorem isDefined_eq (consistent : Consistent a seen) (key : String) :
    a.isDefined key = (Declaration.firsts seen).any (·.key == key) := by
  rw [isDefined, consistent.tables, List.any_map]
  rfl

/-- The owner of a key is a group that is there. -/
theorem exists_group (consistent : Consistent a seen) (owned : a.owner? key = some group) :
    ∃ g, a.groups[group]? = some g ∧ key ∈ g.tables :=
  (consistent.owner_iff key group).1 owned

/-- A table does not change while groups are read. -/
theorem settle_extends (consistent : Consistent a seen) (claimed : Claimed a seen)
    (later : Extends a b) {declaration : Declaration}
    (met : declaration ∈ Declaration.firsts seen) :
    b.settle declaration = a.settle declaration := by
  cases ungrouped : declaration.ungrouped with
  | true => simp [settle, home?, ungrouped]
  | false =>
    obtain ⟨group, owned⟩ := Option.isSome_iff_exists.1 (claimed declaration met ungrouped)
    obtain ⟨g, here, -⟩ := consistent.exists_group owned
    obtain ⟨h, there, id, color⟩ := later.group group g here
    simp [settle, home?, ungrouped, owned, later.owner _ _ owned, here, there, id, color]

theorem tables_extends (consistent : Consistent a seen) (claimed : Claimed a seen)
    (later : Extends a b) : b.tables = (Declaration.firsts seen).map b.settle := by
  rw [later.tables, consistent.tables]
  refine List.map_congr_left fun declaration met => ?_
  exact (consistent.settle_extends claimed later met).symm

end Consistent

theorem Claimed.extends (claimed : Claimed a seen) (later : Extends a b) : Claimed b seen := by
  intro declaration met ungrouped
  obtain ⟨group, owned⟩ := Option.isSome_iff_exists.1 (claimed declaration met ungrouped)
  rw [later.owner _ _ owned]
  rfl

/-! ## Claims -/

theorem owner?_claim (a : Assembly) (group : Nat) (key other : String) :
    (a.claim group key).owner? other =
      if (a.owner? key).isNone ∧ other = key then some group else a.owner? other := by
  unfold claim
  cases owned : a.owner? key with
  | some owner => simp
  | none =>
    by_cases same : other = key
    · simp [owner?, same]
    · have differs : (other == key) = false := by simpa using same
      simp [owner?, List.lookup_cons, differs, same]

theorem owner?_claim_self (a : Assembly) (group : Nat) (key : String) :
    ((a.claim group key).owner? key).isSome := by
  rw [owner?_claim]
  cases owned : a.owner? key <;> simp

theorem groups_claim (a : Assembly) (group : Nat) (key : String) (i : Nat) :
    (a.claim group key).groups[i]? =
      if (a.owner? key).isNone ∧ group = i then
        a.groups[i]?.map fun g => { g with tables := g.tables ++ [key] }
      else a.groups[i]? := by
  unfold claim
  cases owned : a.owner? key with
  | some owner => simp
  | none =>
    by_cases same : group = i <;> simp [same]

@[simp] theorem length_groups_claim (a : Assembly) (group : Nat) (key : String) :
    (a.claim group key).groups.length = a.groups.length := by
  unfold claim
  split <;> simp

theorem extends_claim (a : Assembly) (group : Nat) (key : String) :
    Extends a (a.claim group key) := by
  refine ⟨?_, fun other owner owned => ?_, fun i g here => ?_⟩
  · unfold claim
    split <;> rfl
  · rw [owner?_claim, if_neg ?_]
    · exact owned
    · rintro ⟨free, rfl⟩
      rw [owned] at free
      cases free
  · rw [groups_claim]
    split
    · exact ⟨{ g with tables := g.tables ++ [key] }, by simp [here], rfl, rfl⟩
    · exact ⟨g, here, rfl, rfl⟩

theorem Consistent.claim (consistent : Consistent a seen) (claimed : Claimed a seen)
    (present : group < a.groups.length) : Consistent (a.claim group key) seen := by
  refine ⟨fun other owner => ?_, ?_, consistent.tables_extends claimed (extends_claim a group key)⟩
  · rw [owner?_claim, groups_claim]
    cases owned : a.owner? key with
    | some first => simpa using consistent.owner_iff other owner
    | none =>
      have nowhere : ∀ (i : Nat) (g : TableGroup), a.groups[i]? = some g → key ∉ g.tables := by
        intro i g here listed
        have owner := (consistent.owner_iff key i).2 ⟨g, here, listed⟩
        rw [owned] at owner
        cases owner
      by_cases sameGroup : group = owner
      · subst sameGroup
        obtain ⟨g, here⟩ : ∃ g, a.groups[group]? = some g := ⟨_, List.getElem?_eq_getElem present⟩
        by_cases sameKey : other = key
        · simp [sameKey, here]
        · have before := consistent.owner_iff other group
          simp only [here, Option.some.injEq, exists_eq_left'] at before
          simp [sameKey, here, before]
      · by_cases sameKey : other = key
        · subst sameKey
          simp only [Option.isNone_none, and_self, if_true, Option.some.injEq, sameGroup, and_false,
            if_false, false_iff]
          rintro ⟨g, here, listed⟩
          exact nowhere owner g here listed
        · simpa [sameKey, sameGroup] using consistent.owner_iff other owner
  · intro g listed
    obtain ⟨i, here⟩ := List.mem_iff_getElem?.1 listed
    rw [groups_claim] at here
    split at here
    · rename_i free
      obtain ⟨before, old, rfl⟩ := Option.map_eq_some_iff.1 here
      have fresh : key ∉ before.tables := by
        intro taken
        have owner := (consistent.owner_iff key i).2 ⟨before, old, taken⟩
        rw [owner] at free
        cases free.1
      have nodup := consistent.nodup before (List.mem_of_getElem? old)
      simp only [List.nodup_append, List.nodup_cons, List.not_mem_nil, not_false_eq_true,
        List.nodup_nil, and_self, List.mem_singleton, ne_eq, forall_eq, true_and]
      exact ⟨nodup, fun other taken same => fresh (same ▸ taken)⟩
    · exact consistent.nodup g (List.mem_of_getElem? here)

/-! ## Other steps that add no table -/

theorem Consistent.drop (consistent : Consistent a seen) (block : Block) :
    Consistent (a.drop block) seen :=
  ⟨consistent.owner_iff, consistent.nodup, consistent.tables⟩

theorem extends_append (a : Assembly) (g : TableGroup) :
    Extends a { a with groups := a.groups ++ [g] } := by
  refine ⟨rfl, fun _ _ owned => owned, fun i h here => ⟨h, ?_, rfl, rfl⟩⟩
  have inside := (List.getElem?_eq_some_iff.1 here).1
  rw [← here]
  exact List.getElem?_append_left inside

theorem Consistent.append (consistent : Consistent a seen) (claimed : Claimed a seen)
    {g : TableGroup} (empty : g.tables = []) :
    Consistent { a with groups := a.groups ++ [g] } seen := by
  refine ⟨fun key group => ?_, ?_, consistent.tables_extends claimed (extends_append a g)⟩
  · refine (consistent.owner_iff key group).trans ?_
    show _ ↔ ∃ h, (a.groups ++ [g])[group]? = some h ∧ key ∈ h.tables
    by_cases inside : group < a.groups.length
    · rw [List.getElem?_append_left inside]
    · rw [List.getElem?_append_right (by omega), List.getElem?_eq_none (by omega)]
      refine ⟨by simp, ?_⟩
      rintro ⟨h, here, listed⟩
      obtain ⟨_, same⟩ := List.getElem?_eq_some_iff.1 here
      rw [List.getElem_singleton] at same
      rw [← same, empty] at listed
      cases listed
  · intro h listed
    rcases List.mem_append.1 listed with old | new
    · exact consistent.nodup h old
    · rw [List.mem_singleton.1 new, empty]
      exact .nil

theorem getElem?_setGroupNote (a : Assembly) (group : Nat) (note : Option String) (i : Nat) :
    ∃ f : TableGroup → TableGroup, (a.setGroupNote group note).groups[i]? = a.groups[i]?.map f ∧
      ∀ g, (f g).id = g.id ∧ (f g).color = g.color ∧ (f g).tables = g.tables := by
  unfold setGroupNote
  cases note with
  | none => exact ⟨id, by simp, fun g => ⟨rfl, rfl, rfl⟩⟩
  | some note =>
    by_cases same : group = i
    · exact ⟨fun g => { g with note := some note }, by simp [same], fun g => ⟨rfl, rfl, rfl⟩⟩
    · exact ⟨id, by simp [same], fun g => ⟨rfl, rfl, rfl⟩⟩

theorem setGroupNote_owner? (a : Assembly) (group : Nat) (note : Option String) (key : String) :
    (a.setGroupNote group note).owner? key = a.owner? key := by
  unfold setGroupNote
  cases note <;> rfl

theorem extends_setGroupNote (a : Assembly) (group : Nat) (note : Option String) :
    Extends a (a.setGroupNote group note) := by
  refine ⟨?_, fun key owner owned => ?_, fun i g here => ?_⟩
  · unfold setGroupNote
    cases note <;> rfl
  · rw [setGroupNote_owner?]
    exact owned
  · obtain ⟨f, there, keeps⟩ := getElem?_setGroupNote a group note i
    exact ⟨f g, by rw [there, here]; rfl, (keeps g).1, (keeps g).2.1⟩

theorem Consistent.setGroupNote (consistent : Consistent a seen) (claimed : Claimed a seen)
    (group : Nat) (note : Option String) : Consistent (a.setGroupNote group note) seen := by
  refine ⟨fun key owner => ?_, fun g listed => ?_,
    consistent.tables_extends claimed (extends_setGroupNote a group note)⟩
  · obtain ⟨f, there, keeps⟩ := getElem?_setGroupNote a group note owner
    rw [setGroupNote_owner?, consistent.owner_iff, there]
    refine ⟨fun ⟨g, here, listed⟩ => ⟨f g, by rw [here]; rfl, (keeps g).2.2 ▸ listed⟩, ?_⟩
    rintro ⟨h, here, listed⟩
    obtain ⟨g, old, rfl⟩ := Option.map_eq_some_iff.1 here
    exact ⟨g, old, (keeps g).2.2 ▸ listed⟩
  · obtain ⟨i, here⟩ := List.mem_iff_getElem?.1 listed
    obtain ⟨f, there, keeps⟩ := getElem?_setGroupNote a group note i
    rw [there] at here
    obtain ⟨old, before, rfl⟩ := Option.map_eq_some_iff.1 here
    rw [(keeps old).2.2]
    exact consistent.nodup old (List.mem_of_getElem? before)

/-! ## Tables -/

/-- A table is added for a declaration whose key is new. -/
theorem Consistent.addTable (consistent : Consistent a seen) (declaration : Declaration)
    (fresh : a.isDefined declaration.key = false) {owner : Option Nat}
    (home : owner.bind (a.groups[·]?) = a.home? declaration) :
    Consistent (a.addTable declaration.table owner) (seen ++ [declaration]) := by
  refine ⟨consistent.owner_iff, consistent.nodup, ?_⟩
  rw [consistent.isDefined_eq] at fresh
  rw [Declaration.firsts_concat, Declaration.keep, if_neg (by simp [fresh]), List.map_append]
  show a.tables ++ [_] = (Declaration.firsts seen).map a.settle ++ [a.settle declaration]
  rw [consistent.tables, home]
  rfl

/-- A declaration of a key that is taken changes nothing. -/
theorem Consistent.repeated (consistent : Consistent a seen) (declaration : Declaration)
    (taken : a.isDefined declaration.key = true) : Consistent a (seen ++ [declaration]) := by
  refine ⟨consistent.owner_iff, consistent.nodup, ?_⟩
  rw [consistent.isDefined_eq] at taken
  rw [Declaration.firsts_concat, Declaration.keep, if_pos taken, consistent.tables]

/-- What becomes of a table block, by what it declares. -/
theorem placeTable_value (s : Source) (a : Assembly) (block : Block) (children : List Segment)
    (place : DeclaredTable → Noted Assembly) :
    (placeTable s a block children place).value =
      match (s.declaredTable block children).value with
      | none => a.drop block
      | some table => if a.isDefined table.key then a.drop block else (place table).value := by
  rw [placeTable, Noted.bind_value]
  cases (s.declaredTable block children).value with
  | none => rfl
  | some table =>
    simp only
    split <;> rfl

theorem claimAt_value (a : Assembly) (group : Nat) (key : String) (position : Nat) :
    (a.claimAt group key position).value = a.claim group key := by
  rw [claimAt]
  split
  · split <;> rfl
  · rfl

/-- What holds after the step for a table block: it is dropped because it declares nothing or a key
that is taken, or its table is placed. -/
theorem placeTable_cases {P : Assembly → List Declaration → Prop} (ungrouped : Bool)
    {block : Block} (kind : block.kind = .table) (children : List Segment)
    {place : DeclaredTable → Noted Assembly} (dropped : P (a.drop block) seen)
    (repeated : ∀ table : DeclaredTable, a.isDefined table.key = true →
      P (a.drop block) (seen ++ [⟨table, ungrouped⟩]))
    (placed : ∀ table : DeclaredTable, a.isDefined table.key = false →
      P (place table).value (seen ++ [⟨table, ungrouped⟩])) :
    P (placeTable s a block children place).value
      (seen ++ s.declares ungrouped (.block block children)) := by
  rw [placeTable_value, Source.declares, if_pos kind]
  cases (s.declaredTable block children).value with
  | none => simpa using dropped
  | some table =>
    simp only [Option.toList_some, List.map_cons, List.map_nil]
    by_cases taken : a.isDefined table.key = true
    · rw [if_pos taken]
      exact repeated table taken
    · rw [if_neg taken]
      exact placed table (by simpa using taken)

theorem Consistent.addTopTable (consistent : Consistent a seen) {block : Block}
    (kind : block.kind = .table) (children : List Segment) :
    Consistent (addTopTable s a block children).value
      (seen ++ s.declares false (.block block children)) := by
  refine placeTable_cases false kind children (consistent.drop block) (fun table taken => ?_)
    fun table fresh => ?_
  · exact (consistent.drop block).repeated ⟨table, false⟩ taken
  · exact consistent.addTable ⟨table, false⟩ fresh rfl

/-! ## Groups -/

/-- The invariant while groups are read. -/
structure Grouping (a : Assembly) (seen : List Declaration) : Prop where
  consistent : Consistent a seen
  claimed : Claimed a seen

theorem Claimed.concat (claimed : Claimed a seen) (declaration : Declaration)
    (owned : declaration.ungrouped = false → (a.owner? declaration.key).isSome) :
    Claimed a (seen ++ [declaration]) := by
  intro met listed ungrouped
  rw [Declaration.firsts_concat, Declaration.keep] at listed
  split at listed
  · exact claimed met listed ungrouped
  · rcases List.mem_append.1 listed with old | new
    · exact claimed met old ungrouped
    · rw [List.mem_singleton] at new
      subst new
      exact owned ungrouped

namespace Grouping

theorem claim (grouping : Grouping a seen) (present : group < a.groups.length) (key : String) :
    Grouping (a.claim group key) seen :=
  ⟨grouping.consistent.claim grouping.claimed present,
    grouping.claimed.extends (extends_claim a group key)⟩

/-- A table of a group with a name is a member of the group that owns its key, which may be
another one; a table of a group without a name is a member of none. -/
theorem addGroupTable (grouping : Grouping a seen) {number : Option Nat}
    (present : ∀ group ∈ number, group < a.groups.length) {block : Block}
    (kind : block.kind = .table) (children : List Segment) :
    Grouping (addGroupTable s number a block children).value
      (seen ++ s.declares number.isNone (.block block children)) := by
  have kept := grouping.consistent.drop block
  refine placeTable_cases number.isNone kind children ⟨kept, grouping.claimed⟩
    (fun table taken => ?_) fun table fresh => ?_
  · refine ⟨kept.repeated ⟨table, number.isNone⟩ taken, ?_⟩
    intro declaration met ungrouped
    rw [Declaration.firsts_concat, Declaration.keep, if_pos] at met
    · exact grouping.claimed declaration met ungrouped
    · exact (grouping.consistent.isDefined_eq table.key).symm.trans taken
  · cases number with
    | none =>
      refine ⟨grouping.consistent.addTable ⟨table, true⟩ fresh rfl, ?_⟩
      exact grouping.claimed.concat ⟨table, true⟩ (by simp)
    | some group =>
      have claimed := grouping.claim (present group rfl) table.key
      have fresh : (a.claim group table.key).isDefined table.key = false := by
        rw [isDefined, (extends_claim a group table.key).tables]
        exact fresh
      simp only [Noted.bind_value, claimAt_value, Noted.pure_value]
      refine ⟨claimed.consistent.addTable ⟨table, false⟩ fresh rfl, ?_⟩
      exact claimed.claimed.concat ⟨table, false⟩
        fun _ => owner?_claim_self a group table.key

end Grouping

theorem length_groups_addGroupTable (s : Source) (number : Option Nat) (a : Assembly)
    (block : Block) (children : List Segment) :
    (addGroupTable s number a block children).value.groups.length = a.groups.length := by
  rw [addGroupTable, placeTable_value]
  cases (s.declaredTable block children).value with
  | none => rfl
  | some table =>
    simp only
    split
    · rfl
    · cases number with
      | none => rfl
      | some group =>
        simp only [Noted.bind_value, claimAt_value]
        exact length_groups_claim a group table.key

/-- What a segment of a group's body does to the assembly. -/
theorem applyGroupSegment_assembly (s : Source) (number : Option Nat) (o : OpenGroup)
    (segment : Segment) :
    (∃ block children, segment = .block block children ∧ block.kind = .table ∧
      (applyGroupSegment s number o segment).value.assembly =
        (addGroupTable s number o.assembly block children).value) ∨
    s.declares number.isNone segment = [] ∧
      ((applyGroupSegment s number o segment).value.assembly = o.assembly ∨
        ∃ group key, number = some group ∧
          (applyGroupSegment s number o segment).value.assembly = o.assembly.claim group key) := by
  cases segment with
  | block block children =>
    by_cases kind : block.kind = .table
    · refine .inl ⟨block, children, rfl, kind, ?_⟩
      simp only [applyGroupSegment, kind, Noted.bind_value]
      rfl
    · refine .inr ⟨by simp [Source.declares, kind], .inl ?_⟩
      rw [applyGroupSegment]
      split
      · contradiction
      · rfl
      · rfl
  | line line =>
    refine .inr ⟨rfl, ?_⟩
    rw [applyGroupSegment.eq_def]
    dsimp only
    cases s.noteLine? line with
    | some note => exact .inl rfl
    | none =>
      by_cases short : (s.shortForm? line).isSome = true
      · simp only [if_pos short]
        exact .inl rfl
      · simp only [if_neg short]
        split
        · rename_i names group _
          refine .inr ⟨group, ".".intercalate names, rfl, ?_⟩
          simp only [Noted.bind_value, claimAt_value]
          rfl
        · exact .inl rfl
        · exact .inl rfl

namespace Grouping

theorem applyGroupSegment {o : OpenGroup} (grouping : Grouping o.assembly seen)
    {number : Option Nat} (present : ∀ group ∈ number, group < o.assembly.groups.length)
    (segment : Segment) :
    Grouping (applyGroupSegment s number o segment).value.assembly
      (seen ++ s.declares number.isNone segment) ∧
    (applyGroupSegment s number o segment).value.assembly.groups.length =
      o.assembly.groups.length := by
  rcases applyGroupSegment_assembly s number o segment with
    ⟨block, children, rfl, kind, after⟩ | ⟨none, after | ⟨group, key, rfl, after⟩⟩
  · rw [after]
    exact ⟨grouping.addGroupTable present kind children,
      length_groups_addGroupTable s number o.assembly block children⟩
  · rw [after, none, List.append_nil]
    exact ⟨grouping, rfl⟩
  · rw [after, none, List.append_nil]
    exact ⟨grouping.claim (present group rfl) key, length_groups_claim o.assembly group key⟩

theorem body {number : Option Nat} (segments : List Segment) {o : OpenGroup}
    (grouping : Grouping o.assembly seen)
    (present : ∀ group ∈ number, group < o.assembly.groups.length) :
    Grouping (segments.foldlM (Assembly.applyGroupSegment s number) o).value.assembly
      (seen ++ segments.flatMap (s.declares number.isNone)) := by
  induction segments generalizing o seen with
  | nil => simpa using grouping
  | cons segment rest ih =>
    obtain ⟨after, length⟩ := grouping.applyGroupSegment (s := s) present segment
    rw [List.foldlM_cons, Noted.bind_value, List.flatMap_cons, ← List.append_assoc]
    exact ih after (by rw [length]; exact present)

theorem openGroup (grouping : Grouping a seen) (block : Block) (name : String) :
    Grouping (openGroup s a block name).value seen ∧
      (Assembly.openGroup s a block name).value.groups.length = a.groups.length + 1 := by
  obtain ⟨g, empty, after⟩ : ∃ g : TableGroup, g.tables = [] ∧
      (Assembly.openGroup s a block name).value = { a with groups := a.groups ++ [g] } := by
    simp only [Assembly.openGroup, Noted.bind_value]
    split <;> exact ⟨_, rfl, rfl⟩
  rw [after]
  refine ⟨⟨grouping.consistent.append grouping.claimed empty, ?_⟩, by simp⟩
  exact grouping.claimed.extends (extends_append a g)

theorem addGroup (grouping : Grouping a seen) (block : Block) (children : List Segment) :
    Grouping (addGroup s a block children).value
      (seen ++ children.flatMap (s.declares block.header.name?.isNone)) := by
  rw [Assembly.addGroup]
  cases block.header.name? with
  | none => exact grouping.body children (by simp)
  | some name =>
    obtain ⟨opened, length⟩ := grouping.openGroup (s := s) block name
    have present : ∀ group ∈ some a.groups.length,
        group < (Assembly.openGroup s a block name).value.groups.length := by
      rintro group ⟨⟩
      rw [length]
      omega
    have read := opened.body (s := s) (o := ⟨_, none⟩) children present
    simp only [Noted.bind_value, Noted.pure_value]
    refine ⟨read.consistent.setGroupNote read.claimed _ _, ?_⟩
    exact read.claimed.extends (extends_setGroupNote _ _ _)

theorem applyGroup (grouping : Grouping a seen) (segment : Segment) :
    Grouping (applyGroup s a segment).value (seen ++ s.groupDeclares segment) := by
  cases segment with
  | line line => simpa [Assembly.applyGroup, Source.groupDeclares] using grouping
  | block block children =>
    by_cases kind : block.kind = .tableGroup
    · rw [Assembly.applyGroup, Source.groupDeclares, if_pos kind, if_pos kind]
      exact grouping.addGroup block children
    · rw [Assembly.applyGroup, Source.groupDeclares, if_neg kind, if_neg kind, List.append_nil]
      exact grouping

theorem groups (segments : List Segment) (grouping : Grouping a seen) :
    Grouping (segments.foldlM (Assembly.applyGroup s) a).value
      (seen ++ segments.flatMap s.groupDeclares) := by
  induction segments generalizing a seen with
  | nil => simpa using grouping
  | cons segment rest ih =>
    rw [List.foldlM_cons, Noted.bind_value, List.flatMap_cons, ← List.append_assoc]
    exact ih (grouping.applyGroup segment)

end Grouping

/-! ## The run -/

/-- A project changes none of what the invariant speaks of. -/
theorem Consistent.addProject (consistent : Consistent a seen) (block : Block)
    (children : List Segment) : Consistent (addProject s a block children).value seen := by
  unfold Assembly.addProject
  split
  · exact consistent
  · split
    · exact consistent
    · exact ⟨consistent.owner_iff, consistent.nodup, consistent.tables⟩

theorem Consistent.applyBlock (consistent : Consistent a seen) (segment : Segment) :
    Consistent (applyBlock s a segment).value (seen ++ s.declares false segment) := by
  cases segment with
  | line line => simpa [Source.declares, Assembly.applyBlock] using consistent
  | block block children =>
    by_cases kind : block.kind = .table
    · simp only [Assembly.applyBlock, kind]
      exact consistent.addTopTable kind children
    · rw [Source.declares, if_neg kind, List.append_nil, Assembly.applyBlock]
      split
      · contradiction
      · exact consistent.addProject block children
      · exact consistent
      · exact consistent
      · exact consistent

theorem Consistent.blocks (segments : List Segment) (consistent : Consistent a seen) :
    Consistent (segments.foldlM (Assembly.applyBlock s) a).value
      (seen ++ segments.flatMap (s.declares false)) := by
  induction segments generalizing a seen with
  | nil => simpa using consistent
  | cons segment rest ih =>
    rw [List.foldlM_cons, Noted.bind_value, List.flatMap_cons, ← List.append_assoc]
    exact ih (consistent.applyBlock segment)

theorem consistent_ofSegments (s : Source) (segments : List Segment) :
    Consistent (ofSegments s segments).value (s.declarations segments) := by
  have start : Grouping {} [] := ⟨.empty, by intro declaration met; cases met⟩
  have read := start.groups (s := s) segments
  exact read.consistent.blocks segments

end Dbml.Assembly
