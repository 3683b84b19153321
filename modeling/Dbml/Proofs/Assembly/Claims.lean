import Dbml.Proofs.Assembly.Discovery
import Dbml.Proofs.Finding.Silent
import Dbml.Proofs.Reference.Names

/-!
# Claimed keys

Which keys the groups of a database list: those that lines of groups name, and those of the tables
that are declared in a group first. A group without a name claims none. Main statements:
`applyGroupSegment_name` for a line, and `listed_iff` for the whole run.
-/

namespace Dbml

variable {s : Source} {line : TokenRange} {texts : List String} {key : String}

namespace Source

/-! ## Lines that name keys -/

/-- The keys that a segment of a group's body names: that of a line which is a dotted name, unless
the group has no name. -/
def memberKeys (s : Source) (ungrouped : Bool) : Segment → List String
  | .line line =>
    if ungrouped then [] else ((nameParts (s.tokens line)).map (".".intercalate ·)).toList
  | .block _ _ => []

/-- The keys that the lines of a segment name that is read as a group. -/
def groupMemberKeys (s : Source) : Segment → List String
  | .block block children =>
    if block.kind = .tableGroup then children.flatMap (s.memberKeys block.header.name?.isNone)
    else []
  | .line _ => []

/-- A line in one of the groups with names names the key. -/
def NamesMember (s : Source) (segments : List Segment) (key : String) : Prop :=
  ∃ group children line texts, .block group children ∈ segments ∧ group.kind = .tableGroup ∧
    group.header.name?.isSome ∧ .line line ∈ children ∧ DottedName (s.tokens line) texts ∧
    key = ".".intercalate texts

theorem mem_memberKeys {ungrouped : Bool} {x : Segment} : key ∈ s.memberKeys ungrouped x ↔
    ungrouped = false ∧ ∃ line texts, x = .line line ∧ DottedName (s.tokens line) texts ∧
      key = ".".intercalate texts := by
  cases x with
  | block block children => simp [memberKeys]
  | line line =>
    cases ungrouped with
    | true => simp [memberKeys]
    | false =>
      simp only [memberKeys, Bool.false_eq_true, if_false, Option.mem_toList,
        Option.map_eq_some_iff, nameParts_eq_some_iff, true_and, Segment.line.injEq]
      constructor
      · rintro ⟨texts, spells, rfl⟩
        exact ⟨line, texts, rfl, spells, rfl⟩
      · rintro ⟨_, texts, rfl, spells, rfl⟩
        exact ⟨texts, spells, rfl⟩

theorem mem_groupMemberKeys {segments : List Segment} :
    key ∈ segments.flatMap s.groupMemberKeys ↔ s.NamesMember segments key := by
  rw [List.mem_flatMap]
  constructor
  · rintro ⟨x, listed, named⟩
    cases x with
    | line line => cases named
    | block group children =>
      rw [groupMemberKeys] at named
      split at named
      next kind =>
        obtain ⟨y, inner, named⟩ := List.mem_flatMap.1 named
        obtain ⟨grouped, line, texts, rfl, spells, same⟩ := mem_memberKeys.1 named
        refine ⟨group, children, line, texts, listed, kind, ?_, inner, spells, same⟩
        simpa using grouped
      · cases named
  · rintro ⟨group, children, line, texts, listed, kind, named, inner, spells, same⟩
    refine ⟨_, listed, ?_⟩
    rw [groupMemberKeys, if_pos kind]
    refine List.mem_flatMap.2 ⟨_, inner, mem_memberKeys.2 ⟨?_, line, texts, rfl, spells, same⟩⟩
    simpa using named

theorem not_colon_of_dottedName {k : Nat} (spells : DottedName (s.tokens line) texts)
    (low : line.start ≤ k) (high : k < line.stop) : ¬ s.isMark k .colon = true := by
  intro colon
  have here := (getElem?_tokens low high).trans (isMark_iff_token?.1 colon)
  rcases spells.alternates here with ⟨-, named⟩ | ⟨-, dot⟩
  · cases named
  · cases dot

/-- A dotted name is neither a note nor a reference. -/
theorem noteLine?_of_dottedName (spells : DottedName (s.tokens line) texts) :
    s.noteLine? line = none := by
  rw [noteLine?, if_neg]
  rintro ⟨-, long, colon⟩
  rw [TokenRange.size] at long
  exact not_colon_of_dottedName spells (Nat.le_succ _) (by omega) colon

theorem shortForm?_of_dottedName (spells : DottedName (s.tokens line) texts) :
    s.shortForm? line = none := by
  cases found : s.shortForm? line with
  | none => rfl
  | some form =>
    unfold shortForm? at found
    obtain ⟨-, found⟩ := Option.ite_none_right_eq_some.1 found
    obtain ⟨⟨inside, colon⟩, -⟩ := Option.ite_none_right_eq_some.1 found
    have behind (named : Bool) :
        line.start ≤ if named = true then line.start + 2 else line.start + 1 := by
      split <;> omega
    exact absurd colon (not_colon_of_dottedName spells (behind _) inside)

end Source

namespace Declaration

/-- The first declaration of the key stands in a group with a name. -/
def FirstGrouped (declarations : List Declaration) (key : String) : Prop :=
  ∃ declaration, declarations.find? (·.key == key) = some declaration ∧
    declaration.ungrouped = false

variable {declarations : List Declaration}

theorem firstGrouped_concat {last : Declaration} : FirstGrouped (declarations ++ [last]) key ↔
    FirstGrouped declarations key ∨
      declarations.find? (·.key == key) = none ∧ last.key = key ∧ last.ungrouped = false := by
  rw [FirstGrouped, FirstGrouped, List.find?_append]
  cases declarations.find? (·.key == key) with
  | some first => simp
  | none => simp [List.find?_singleton]

theorem firstGrouped_repeated (last : Declaration)
    (taken : (declarations.find? (·.key == last.key)).isSome) :
    FirstGrouped (declarations ++ [last]) key ↔ FirstGrouped declarations key := by
  rw [firstGrouped_concat]
  refine ⟨fun either => either.resolve_right ?_, .inl⟩
  rintro ⟨none, rfl, -⟩
  rw [none] at taken
  cases taken

theorem firstGrouped_fresh (last : Declaration)
    (fresh : (declarations.find? (·.key == last.key)).isSome = false) :
    FirstGrouped (declarations ++ [last]) key ↔
      FirstGrouped declarations key ∨ last.ungrouped = false ∧ key = last.key := by
  rw [Option.isSome_eq_false_iff, Option.isNone_iff_eq_none] at fresh
  rw [firstGrouped_concat]
  refine or_congr_right ⟨?_, ?_⟩
  · rintro ⟨-, rfl, grouped⟩
    exact ⟨grouped, rfl⟩
  · rintro ⟨grouped, rfl⟩
    exact ⟨fresh, rfl, grouped⟩

end Declaration

namespace Assembly

variable {a : Assembly} {o : OpenGroup} {named : List String} {seen : List Declaration}
  {group : Nat} {number : Option Nat}

/-- A dotted name in a group with a name claims the key that its texts make. -/
theorem applyGroupSegment_name (spells : DottedName (s.tokens line) texts) (group : Nat)
    (o : OpenGroup) :
    applyGroupSegment s (some group) o (.line line) = do
      let assembly ← o.assembly.claimAt group (".".intercalate texts) line.start
      return { o with assembly } := by
  rw [applyGroupSegment.eq_def]
  simp [Source.noteLine?_of_dottedName spells, Source.shortForm?_of_dottedName spells,
    nameParts_eq_some_iff.2 spells]

/-- Lines of other shapes, and lines of a group without a name, claim nothing. -/
theorem applyGroupSegment_other (other : number = none ∨ BreaksName (s.tokens line))
    (o : OpenGroup) :
    (applyGroupSegment s number o (.line line)).value.assembly = o.assembly := by
  rw [applyGroupSegment.eq_def]
  dsimp only
  cases s.noteLine? line with
  | some note => rfl
  | none =>
    dsimp only
    by_cases short : (s.shortForm? line).isSome = true
    · rw [if_pos short]
      rfl
    · rw [if_neg short]
      split
      next names group read =>
        rcases other with none | breaks
        · cases none
        · rw [nameParts_eq_none_iff.2 breaks] at read
          cases read
      · rfl
      · rfl

theorem applyGroupSegment_block (s : Source) (number : Option Nat) (o : OpenGroup) (block : Block)
    (children : List Segment) :
    (applyGroupSegment s number o (.block block children)).value.assembly =
      if block.kind = .table then (addGroupTable s number o.assembly block children).value
      else o.assembly := by
  rw [applyGroupSegment]
  split
  next kind =>
    rw [if_pos kind]
    rfl
  next kind =>
    rw [if_neg (by simp [kind])]
    rfl
  next other _ =>
    rw [if_neg other]
    rfl

/-! ## What groups own -/

theorem Consistent.isDefined_eq_find? (consistent : Consistent a seen) (key : String) :
    a.isDefined key = (seen.find? (·.key == key)).isSome := by
  rw [consistent.isDefined_eq, ← Declaration.find?_firsts, List.isSome_find?]

theorem isSome_owner?_claim (a : Assembly) (group : Nat) (key other : String) :
    ((a.claim group key).owner? other).isSome ↔ (a.owner? other).isSome ∨ other = key := by
  rw [owner?_claim]
  by_cases same : other = key
  · subst same
    cases a.owner? other <;> simp
  · simp [same]

/-- The keys that are owned by groups are those that lines have named and those of the tables that
were declared first in a group with a name. -/
structure Owning (a : Assembly) (named : List String) (seen : List Declaration) : Prop
    extends Grouping a seen where
  owned_iff : ∀ key, (a.owner? key).isSome ↔ key ∈ named ∨ Declaration.FirstGrouped seen key

namespace Owning

theorem empty : Owning {} [] [] := by
  refine ⟨⟨.empty, by intro declaration met; cases met⟩, fun key => ?_⟩
  simp [owner?, Declaration.FirstGrouped]

theorem claim (owning : Owning a named seen) (present : group < a.groups.length) (key : String) :
    Owning (a.claim group key) (named ++ [key]) seen := by
  refine ⟨owning.toGrouping.claim present key, fun other => ?_⟩
  rw [isSome_owner?_claim, owning.owned_iff, List.mem_append, List.mem_singleton, or_right_comm]

/-- The table of a group is claimed when its key is new and the group has a name. -/
theorem addGroupTable (owning : Owning a named seen)
    (present : ∀ group ∈ number, group < a.groups.length) {block : Block}
    (kind : block.kind = .table) (children : List Segment) :
    Owning (addGroupTable s number a block children).value named
      (seen ++ s.declares number.isNone (.block block children)) := by
  refine ⟨owning.toGrouping.addGroupTable present kind children, fun key => ?_⟩
  have owned := owning.owned_iff key
  have defined := owning.consistent.isDefined_eq_find?
  refine placeTable_cases (P := fun b met => (b.owner? key).isSome ↔
    key ∈ named ∨ Declaration.FirstGrouped met key) number.isNone kind children owned
    (fun table taken => ?_) fun table fresh => ?_
  · rw [Declaration.firstGrouped_repeated ⟨table, number.isNone⟩
      ((defined table.key).symm.trans taken)]
    exact owned
  · rw [Declaration.firstGrouped_fresh ⟨table, number.isNone⟩
      ((defined table.key).symm.trans fresh), ← or_assoc, ← owned]
    cases number with
    | none => exact (or_iff_left (by rintro ⟨⟨⟩, -⟩)).symm
    | some group =>
      simp only [Noted.bind_value, claimAt_value, Noted.pure_value]
      exact (isSome_owner?_claim a group table.key key).trans
        (or_congr_right (by simp [Declaration.key]))

/-- A line that is a dotted name claims its key for a group with a name. -/
theorem applyGroupLine (owning : Owning o.assembly named seen)
    (present : ∀ group ∈ number, group < o.assembly.groups.length) (line : TokenRange) :
    Owning (Assembly.applyGroupSegment s number o (.line line)).value.assembly
      (named ++ s.memberKeys number.isNone (.line line)) seen := by
  cases read : nameParts (s.tokens line) with
  | none =>
    have keys : s.memberKeys number.isNone (.line line) = [] := by simp [Source.memberKeys, read]
    rw [applyGroupSegment_other (.inr (nameParts_eq_none_iff.1 read)), keys, List.append_nil]
    exact owning
  | some texts =>
    cases number with
    | none =>
      rw [applyGroupSegment_other (.inl rfl)]
      simpa [Source.memberKeys] using owning
    | some group =>
      have keys : s.memberKeys false (.line line) = [".".intercalate texts] := by
        simp [Source.memberKeys, read]
      rw [applyGroupSegment_name (nameParts_eq_some_iff.1 read), Noted.bind_value, claimAt_value]
      show Owning _ (named ++ s.memberKeys false (.line line)) seen
      rw [keys]
      exact owning.claim (present group rfl) _

theorem applyGroupSegment (owning : Owning o.assembly named seen)
    (present : ∀ group ∈ number, group < o.assembly.groups.length) (x : Segment) :
    Owning (Assembly.applyGroupSegment s number o x).value.assembly
      (named ++ s.memberKeys number.isNone x) (seen ++ s.declares number.isNone x) := by
  cases x with
  | line line =>
    rw [Source.declares, List.append_nil]
    exact owning.applyGroupLine present line
  | block block children =>
    rw [applyGroupSegment_block, Source.memberKeys, List.append_nil]
    by_cases kind : block.kind = .table
    · rw [if_pos kind]
      exact owning.addGroupTable present kind children
    · rw [if_neg kind, Source.declares, if_neg kind, List.append_nil]
      exact owning

theorem body (segments : List Segment) (owning : Owning o.assembly named seen)
    (present : ∀ group ∈ number, group < o.assembly.groups.length) :
    Owning (segments.foldlM (Assembly.applyGroupSegment s number) o).value.assembly
      (named ++ segments.flatMap (s.memberKeys number.isNone))
      (seen ++ segments.flatMap (s.declares number.isNone)) := by
  induction segments generalizing o named seen with
  | nil => simpa using owning
  | cons x rest ih =>
    have length := (owning.toGrouping.applyGroupSegment (s := s) present x).2
    rw [List.foldlM_cons, Noted.bind_value, List.flatMap_cons, List.flatMap_cons,
      ← List.append_assoc, ← List.append_assoc]
    exact ih (owning.applyGroupSegment present x) (by rw [length]; exact present)

theorem addGroup (owning : Owning a named seen) {block : Block} (kind : block.kind = .tableGroup)
    (children : List Segment) :
    Owning (addGroup s a block children).value
      (named ++ s.groupMemberKeys (.block block children))
      (seen ++ s.groupDeclares (.block block children)) := by
  rw [Source.groupMemberKeys, if_pos kind, Source.groupDeclares, if_pos kind, Assembly.addGroup]
  cases block.header.name? with
  | none => exact owning.body children (by simp)
  | some name =>
    obtain ⟨opened, length⟩ := owning.toGrouping.openGroup (s := s) block name
    obtain ⟨g, same⟩ := openGroup_value s block name
    have start : Owning (openGroup s a block name).value named seen := by
      refine ⟨opened, fun key => ?_⟩
      rw [same]
      exact owning.owned_iff key
    have present : ∀ group ∈ some a.groups.length,
        group < (openGroup s a block name).value.groups.length := by
      rintro group ⟨⟩
      rw [length]
      omega
    have read := start.body (s := s) (o := ⟨_, none⟩) children present
    simp only [Noted.bind_value, Noted.pure_value]
    refine ⟨⟨read.consistent.setGroupNote read.claimed _ _,
      read.claimed.extends (extends_setGroupNote _ _ _)⟩, fun key => ?_⟩
    rw [setGroupNote_owner?]
    exact read.owned_iff key

theorem groups (segments : List Segment) (owning : Owning a named seen) :
    Owning (segments.foldlM (applyGroup s) a).value
      (named ++ segments.flatMap s.groupMemberKeys) (seen ++ segments.flatMap s.groupDeclares) := by
  induction segments generalizing a named seen with
  | nil => simpa using owning
  | cons x rest ih =>
    rw [List.foldlM_cons, Noted.bind_value, List.flatMap_cons, List.flatMap_cons,
      ← List.append_assoc, ← List.append_assoc]
    refine ih ?_
    cases x with
    | line line => simpa [applyGroup, Source.groupMemberKeys, Source.groupDeclares] using owning
    | block block children =>
      rw [applyGroup]
      by_cases kind : block.kind = .tableGroup
      · rw [if_pos kind]
        exact owning.addGroup kind children
      · rw [if_neg kind, Source.groupMemberKeys, if_neg kind, Source.groupDeclares, if_neg kind,
          List.append_nil, List.append_nil]
        exact owning

end Owning

/-! ## The run -/

/-- Tables outside groups and projects claim nothing. -/
theorem owner?_applyBlock (a : Assembly) (x : Segment) (key : String) :
    (applyBlock s a x).value.owner? key = a.owner? key := by
  cases x with
  | line line => rfl
  | block block children =>
    rw [applyBlock]
    split
    · rw [addTopTable, placeTable_value]
      cases (s.declaredTable block children).value with
      | none => rfl
      | some table =>
        dsimp only
        split <;> rfl
    · obtain ⟨project, same⟩ := addProject_frame s a block children
      rw [same]
      rfl
    · rfl
    · rfl
    · rfl

/-- A group lists a key when a line in a group with a name spells it, or when the first table that
groups declare under the key stands in a group with a name. -/
theorem listed_iff (s : Source) (segments : List Segment) (key : String) :
    (∃ g ∈ (ofSegments s segments).value.groups, key ∈ g.tables) ↔
      s.NamesMember segments key ∨
        Declaration.FirstGrouped (segments.flatMap s.groupDeclares) key := by
  have consistent := consistent_ofSegments s segments
  have owning := Owning.empty.groups (s := s) segments
  have owned : ((ofSegments s segments).value.owner? key).isSome ↔ s.NamesMember segments key ∨
      Declaration.FirstGrouped (segments.flatMap s.groupDeclares) key := by
    rw [ofSegments, Noted.bind_value,
      Noted.view_foldlM (·.owner? key) fun a x => owner?_applyBlock a x key, owning.owned_iff,
      List.nil_append, List.nil_append, Source.mem_groupMemberKeys]
  rw [← owned, Option.isSome_iff_exists]
  constructor
  · rintro ⟨g, listed, member⟩
    obtain ⟨i, here⟩ := List.mem_iff_getElem?.1 listed
    exact ⟨i, (consistent.owner_iff key i).2 ⟨g, here, member⟩⟩
  · rintro ⟨i, owned⟩
    obtain ⟨g, here, member⟩ := consistent.exists_group owned
    exact ⟨g, List.mem_of_getElem? here, member⟩

end Assembly

end Dbml
