import Dbml.Proofs.Segment.Places
import Dbml.Statement

/-!
# The statements that are found

Which statements a document makes, told without the order in which they are collected, and that they
are collected in the order of their first tokens. Main statements: `mem_statements_iff` and
`sublist_positions`.
-/

namespace Dbml

open Segment

namespace Statement

/-- The number of the first token. -/
def position : Statement → Nat
  | .reference position _ _ | .unknown position | .nested position => position

def isReference : Statement → Bool
  | .reference _ _ _ => true
  | _ => false

end Statement

namespace Source

variable {s : Source} {skips : Block → Prop} {dropped : List Nat} {topLevel : Bool}
  {around : Option Block} {segments rest children : List Segment} {block : Block}
  {line : TokenRange} {statement : Statement} {x : Segment}

/-! ## Where references are found -/

/-- The reference statements in the segments: lines `Ref: …`, the lines of `Ref` blocks, and what is
found in groups and tables, of which some are skipped. -/
inductive Refers (s : Source) (skips : Block → Prop) : List Segment → Statement → Prop
  | line {segments : List Segment} {line range : TokenRange} {name : Option String}
    (here : .line line ∈ segments) (short : s.shortForm? line = some (name, range)) :
    s.Refers skips segments (.reference line.start range name)
  | listed {segments children : List Segment} {block : Block} {line : TokenRange}
    (here : .block block children ∈ segments) (kind : block.kind = .ref)
    (inner : .line line ∈ children) :
    s.Refers skips segments (.reference line.start line block.header.name?)
  | group {segments children : List Segment} {block : Block} {statement : Statement}
    (here : .block block children ∈ segments) (kind : block.kind = .tableGroup)
    (inner : s.Refers skips children statement) : s.Refers skips segments statement
  | table {segments children : List Segment} {block : Block} {statement : Statement}
    (here : .block block children ∈ segments) (kind : block.kind = .table) (kept : ¬ skips block)
    (inner : s.Refers skips children statement) : s.Refers skips segments statement

theorem not_refers_nil : ¬ s.Refers skips [] statement := by
  rintro (⟨here, -⟩ | ⟨here, -, -⟩ | ⟨here, -, -⟩ | ⟨here, -, -, -⟩) <;> cases here

theorem refers_mono (part : segments ⊆ rest) (found : s.Refers skips segments statement) :
    s.Refers skips rest statement := by
  cases found with
  | line here short => exact .line (part here) short
  | listed here kind inner => exact .listed (part here) kind inner
  | group here kind inner => exact .group (part here) kind inner
  | table here kind kept inner => exact .table (part here) kind kept inner

theorem refers_cons :
    s.Refers skips (x :: rest) statement ↔
      s.Refers skips [x] statement ∨ s.Refers skips rest statement := by
  constructor
  · intro found
    cases found with
    | line here short =>
      rcases List.mem_cons.1 here with same | later
      · exact .inl (.line (by simp [same]) short)
      · exact .inr (.line later short)
    | listed here kind inner =>
      rcases List.mem_cons.1 here with same | later
      · exact .inl (.listed (by simp [same]) kind inner)
      · exact .inr (.listed later kind inner)
    | group here kind inner =>
      rcases List.mem_cons.1 here with same | later
      · exact .inl (.group (by simp [same]) kind inner)
      · exact .inr (.group later kind inner)
    | table here kind kept inner =>
      rcases List.mem_cons.1 here with same | later
      · exact .inl (.table (by simp [same]) kind kept inner)
      · exact .inr (.table later kind kept inner)
  · rintro (own | later)
    · exact refers_mono (by simp) own
    · exact refers_mono (by simp) later

theorem refers_line : s.Refers skips [.line line] statement ↔
    ∃ name range, s.shortForm? line = some (name, range) ∧
      statement = .reference line.start range name := by
  constructor
  · intro found
    cases found with
    | line here short =>
      cases List.mem_singleton.1 here
      exact ⟨_, _, short, rfl⟩
    | listed here => cases List.mem_singleton.1 here
    | group here => cases List.mem_singleton.1 here
    | table here => cases List.mem_singleton.1 here
  · rintro ⟨name, range, short, rfl⟩
    exact .line (by simp) short

theorem refers_block : s.Refers skips [.block block children] statement ↔
    (block.kind = .ref ∧ ∃ line, .line line ∈ children ∧
      statement = .reference line.start line block.header.name?) ∨
    (block.kind = .tableGroup ∧ s.Refers skips children statement) ∨
    (block.kind = .table ∧ ¬ skips block ∧ s.Refers skips children statement) := by
  constructor
  · intro found
    cases found with
    | line here => cases List.mem_singleton.1 here
    | listed here kind inner =>
      cases List.mem_singleton.1 here
      exact .inl ⟨kind, _, inner, rfl⟩
    | group here kind inner =>
      cases List.mem_singleton.1 here
      exact .inr (.inl ⟨kind, inner⟩)
    | table here kind kept inner =>
      cases List.mem_singleton.1 here
      exact .inr (.inr ⟨kind, kept, inner⟩)
  · rintro (⟨kind, line, inner, rfl⟩ | ⟨kind, inner⟩ | ⟨kind, kept, inner⟩)
    · exact .listed (by simp) kind inner
    · exact .group (by simp) kind inner
    · exact .table (by simp) kind kept inner

/-! ## The collection -/

theorem mem_lineStatement : (statement ∈ s.lineStatement topLevel line ∧
    statement.isReference = true) ↔ s.Refers skips [.line line] statement := by
  rw [refers_line, lineStatement]
  split
  next name range short =>
    rw [List.mem_singleton]
    constructor
    · rintro ⟨rfl, -⟩
      exact ⟨name, range, short, rfl⟩
    · rintro ⟨other, range', same, rfl⟩
      rw [short] at same
      cases same
      exact ⟨rfl, rfl⟩
  next other =>
    constructor
    · rintro ⟨listed, reference⟩
      cases topLevel with
      | true =>
        rw [if_pos rfl, List.mem_singleton] at listed
        rw [listed] at reference
        cases reference
      | false => cases listed
    · rintro ⟨name, range, short, -⟩
      rw [other] at short
      cases short

/-- The references among the statements that are collected are those that are found, when the tables
that are skipped are those that were dropped. -/
theorem mem_statements_iff
    (agree : ∀ block children, (∃ outer, ⟨outer, .block block children⟩ ∈ places around segments) →
      block.kind = .table → (block.start ∈ dropped ↔ skips block)) :
    (statement ∈ s.statements dropped topLevel segments ∧ statement.isReference = true) ↔
      s.Refers skips segments statement := by
  induction segments using tree_induction generalizing around topLevel with
  | nil => simp [statements, not_refers_nil]
  | line line rest ih =>
    have later := @ih topLevel around fun block children here =>
      agree block children (here.imp fun outer => List.mem_cons_of_mem _)
    rw [statements, segmentStatements, List.mem_append, or_and_right, mem_lineStatement, later,
      ← refers_cons]
  | block block children rest inner ih =>
    have later := @ih topLevel around fun other inside here =>
      agree other inside (here.imp fun outer listed => by simp [places, listed])
    have within := @inner false (some block) fun other inside here =>
      agree other inside (here.imp fun outer listed => by simp [places, Segment.inside, listed])
    rw [statements, List.mem_append, or_and_right, later, refers_cons, refers_block]
    refine or_congr_left ?_
    unfold segmentStatements
    split
    next kind =>
      simp only [kind, reduceCtorEq, false_and, or_false, true_and]
      constructor
      · rintro ⟨listed, reference⟩
        obtain ⟨y, there, rfl⟩ := List.mem_map.1 listed
        cases y with
        | line line => exact ⟨line, there, rfl⟩
        | block other inside => cases reference
      · rintro ⟨line, there, rfl⟩
        exact ⟨List.mem_map.2 ⟨.line line, there, rfl⟩, rfl⟩
    next kind =>
      have skipped := agree block children ⟨around, by simp [places]⟩ kind
      simp only [kind, reduceCtorEq, false_and, false_or, true_and]
      by_cases drop : block.start ∈ dropped
      · simp [drop, skipped.1 drop]
      · simp only [List.contains_eq_mem, drop, decide_false, Bool.false_eq_true, if_false, within,
          mt skipped.2 drop, not_false_eq_true, true_and]
    next kind => simp only [kind, reduceCtorEq, false_and, false_or, or_false, true_and, within]
    next reference table group =>
      refine ⟨fun found => absurd found.1 List.not_mem_nil, ?_⟩
      rintro (⟨kind, -⟩ | ⟨kind, -⟩ | ⟨kind, -⟩)
      · exact absurd kind reference
      · exact absurd kind group
      · exact absurd kind table

theorem sublist_listed (name : Option String) (around : Option Block) (children : List Segment) :
    ((children.map (listedStatement name)).map Statement.position).Sublist
      ((places around children).map Place.start) := by
  have position : Statement.position ∘ listedStatement name = Segment.start := by
    funext x
    cases x <;> rfl
  rw [List.map_map, position]
  induction children with
  | nil => exact List.nil_sublist _
  | cons x rest ih =>
    rw [places, List.map_cons, List.map_cons, List.map_append]
    exact (ih.trans (List.sublist_append_right _ _)).cons_cons _

/-- The statements stand in the order of the segments that make them. -/
theorem sublist_positions (s : Source) (dropped : List Nat) (topLevel : Bool)
    (around : Option Block) (segments : List Segment) :
    ((s.statements dropped topLevel segments).map Statement.position).Sublist
      ((places around segments).map Place.start) := by
  induction segments using tree_induction generalizing around topLevel with
  | nil => simp [statements, places]
  | line line rest ih =>
    have own : ((s.lineStatement topLevel line).map Statement.position).Sublist [line.start] := by
      unfold lineStatement
      split
      · exact List.Sublist.refl _
      · split <;> simp [Statement.position]
    rw [statements, segmentStatements, places, List.map_append, List.map_cons]
    exact own.append (ih topLevel around)
  | block block children rest inner ih =>
    have own : ((s.segmentStatements dropped topLevel (.block block children)).map
        Statement.position).Sublist ((places (some block) children).map Place.start) := by
      unfold segmentStatements
      split
      · exact sublist_listed block.header.name? (some block) children
      · split
        · exact List.nil_sublist _
        · exact inner false (some block)
      · exact inner false (some block)
      · exact List.nil_sublist _
    rw [statements, places, List.map_append, List.map_cons, List.map_append]
    exact (own.append (ih topLevel around)).cons _

/-! ## Where statements stand -/

/-- The segment in the place makes the statement, when the block around it is read for
statements. -/
inductive States (s : Source) : Place → Statement → Prop
  | line {around : Option Block} {line range : TokenRange} {name : Option String}
    (kind : ∀ block ∈ around, block.kind = .table ∨ block.kind = .tableGroup)
    (short : s.shortForm? line = some (name, range)) :
    s.States ⟨around, .line line⟩ (.reference line.start range name)
  | unknown {line : TokenRange} (other : s.shortForm? line = none) :
    s.States ⟨none, .line line⟩ (.unknown line.start)
  | listed {block : Block} {line : TokenRange} (kind : block.kind = .ref) :
    s.States ⟨some block, .line line⟩ (.reference line.start line block.header.name?)
  | nested {block inner : Block} {children : List Segment} (kind : block.kind = .ref) :
    s.States ⟨some block, .block inner children⟩ (.nested inner.start)

theorem States.position_eq {place : Place} (states : s.States place statement) :
    statement.position = place.start := by
  cases states <;> rfl

theorem states_of_mem_lineStatement (top : topLevel = true → around = none)
    (kind : ∀ block ∈ around, block.kind = .table ∨ block.kind = .tableGroup)
    (made : statement ∈ s.lineStatement topLevel line) :
    s.States ⟨around, .line line⟩ statement := by
  unfold lineStatement at made
  split at made
  next short =>
    rw [List.mem_singleton.1 made]
    exact .line kind short
  next other =>
    split at made
    next above =>
      rw [List.mem_singleton.1 made, top above]
      exact .unknown other
    · cases made

/-- Every statement that is collected is made by a segment that stands in the document. -/
theorem exists_states (top : topLevel = true → around = none)
    (kind : ∀ block ∈ around, block.kind = .table ∨ block.kind = .tableGroup)
    (made : statement ∈ s.statements dropped topLevel segments) :
    ∃ place ∈ places around segments, s.States place statement := by
  induction segments using tree_induction generalizing around topLevel with
  | nil => simp [statements] at made
  | line line rest ih =>
    rw [statements, segmentStatements] at made
    rcases List.mem_append.1 made with own | later
    · exact ⟨_, List.mem_cons_self, states_of_mem_lineStatement top kind own⟩
    · obtain ⟨place, here, states⟩ := ih top kind later
      exact ⟨place, List.mem_cons_of_mem _ here, states⟩
  | block block children rest inner ih =>
    have part : places (some block) children ⊆ places around (.block block children :: rest) :=
      places_subset (by simp)
    rw [statements] at made
    rcases List.mem_append.1 made with own | later
    · unfold segmentStatements at own
      split at own
      next reference =>
        obtain ⟨x, listed, rfl⟩ := List.mem_map.1 own
        refine ⟨⟨some block, x⟩, part (mem_places listed), ?_⟩
        cases x with
        | line line => exact .listed reference
        | block other inside => exact .nested reference
      next table =>
        split at own
        · cases own
        · obtain ⟨place, here, states⟩ :=
            @inner false (some block) (by simp) (by simp [table]) own
          exact ⟨place, part here, states⟩
      next group =>
        obtain ⟨place, here, states⟩ :=
          @inner false (some block) (by simp) (by simp [group]) own
        exact ⟨place, part here, states⟩
      · cases own
    · obtain ⟨place, here, states⟩ := ih top kind later
      exact ⟨place, by simp [places, here], states⟩

/-! ## What the statements amount to -/

/-- The relationship of a reference that is accepted. -/
def accepted? (s : Source) : Statement → Option Relationship
  | .reference _ range name => (s.reference range name).toOption.map (·.relationship)
  | _ => none

/-- What is noted of a reference that is not accepted. -/
def rejection? (s : Source) : Statement → Option Finding
  | .reference position range name =>
    match s.reference range name with
    | .ok _ => none
    | .error fault => some ⟨position, .rejectedReference fault⟩
  | _ => none

theorem statedRelationship_value (s : Source) (statement : Statement) :
    (s.statedRelationship statement).value = s.accepted? statement := by
  cases statement with
  | reference position range name =>
    rw [statedRelationship, accepted?]
    cases s.reference range name with
    | ok reference =>
      dsimp only
      split <;> rfl
    | error fault => rfl
  | unknown position => rfl
  | nested position => rfl

theorem statedRelationships_value (s : Source) (statements : List Statement) :
    (s.statedRelationships statements).value = statements.filterMap s.accepted? := by
  induction statements with
  | nil => rfl
  | cons statement rest ih =>
    rw [statedRelationships, Noted.bind_value, Noted.bind_value, Noted.pure_value, ih,
      statedRelationship_value]
    cases read : s.accepted? statement <;> simp [read]

theorem statedRelationships_findings (s : Source) (statements : List Statement) :
    (s.statedRelationships statements).findings =
      statements.flatMap fun statement => (s.statedRelationship statement).findings := by
  induction statements with
  | nil => rfl
  | cons statement rest ih =>
    rw [statedRelationships, Noted.bind_findings, Noted.bind_findings, Noted.pure_findings,
      List.append_nil, ih, List.flatMap_cons]

end Source

end Dbml
