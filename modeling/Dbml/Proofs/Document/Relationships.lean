import Dbml.Proofs.Assembly.Discovery
import Dbml.Proofs.Document.Parse
import Dbml.Proofs.Recovery.PassedOver
import Dbml.Proofs.Source.Contents
import Dbml.Proofs.Statement.Found
import Dbml.Proofs.Table.Inline

/-!
# The relationships of a database

First come the relationships of columns, in the order of the tables and their columns, then those of
the references that stand on their own, in the order of the document. Main statement:
`accounts_of_parse`.
-/

namespace Dbml

open Segment

/-- Whether the cause says that a reference is not accepted. -/
def Cause.isRejection : Cause → Bool
  | .rejectedReference _ => true
  | _ => false

theorem Cause.skipsLine_of_isRejection {cause : Cause} (rejects : cause.isRejection = true) :
    cause.skipsLine = true := by
  cases cause with
  | rejectedReference fault => rfl
  | _ => cases rejects

/-- The columns with references, each with the key of its table. -/
def referrers (tables : List Table) : List (String × Column) :=
  tables.flatMap fun table => (referring table.columns).map fun column => (table.key, column)

namespace Source

theorem PassesOver.isRejection {s : Source} {place : Place} {cause : Cause}
    (passed : s.PassesOver place cause) : cause.isRejection = false := by
  cases passed <;> rfl

variable {s : Source} {segments : List Segment} {text : String} {database : Database}

/-! ## The relationships of columns -/

/-- The relationships of an assembly are those of the columns in its tables. -/
def InlinesTables (s : Source) (a : Assembly) : Prop :=
  List.Forall₂ (fun referrer relationship => s.Inlines referrer.1 referrer.2 relationship)
    (referrers a.tables) a.relationships

theorem inlinesTables_invariant (s : Source) :
    Assembly.TableInvariant s fun a _ => s.InlinesTables a where
  frame := by
    intro a b _ inlines tables relationships _
    rw [InlinesTables, tables, relationships]
    exact inlines
  drop := fun _ inlines _ => inlines
  add := by
    intro a _ found table owner inlines declared _
    have own : s.InlinesAll table.key table.columns table.relationships :=
      inlines_of_declaredTable declared
    have one : List.Forall₂
        (fun referrer relationship => s.Inlines referrer.1 referrer.2 relationship)
        ((referring table.columns).map fun column => (table.key, column)) table.relationships :=
      List.forall₂_map_left_iff.2 own
    unfold InlinesTables Assembly.addTable
    rw [referrers, List.flatMap_append, List.flatMap_singleton]
    exact List.rel_append inlines one

theorem inlinesTables_ofSegments (s : Source) (segments : List Segment) :
    s.InlinesTables (Assembly.ofSegments s segments).value :=
  (inlinesTables_invariant s).ofSegments .nil segments

/-! ## The references that stand on their own -/

/-- The statements of a document, as they are collected. -/
def collected (s : Source) (segments : List Segment) : List Statement :=
  s.statements (Assembly.ofSegments s segments).value.dropped true segments

/-- The references among the statements of a document. -/
def references (s : Source) (segments : List Segment) : List Statement :=
  (s.collected segments).filter (·.isReference)

/-- The first tokens of dropped blocks tell them from all other blocks of the document. -/
theorem mem_dropped_iff_drops (ordered : Place.InOrder (places none segments)) {block : Block}
    {children : List Segment} {outer : Option Block}
    (here : ⟨outer, .block block children⟩ ∈ places none segments) :
    block.start ∈ (Assembly.ofSegments s segments).value.dropped ↔ s.Drops segments block := by
  rw [Assembly.mem_dropped_iff]
  refine ⟨?_, fun drops => ⟨block, drops, rfl⟩⟩
  rintro ⟨other, drops, same⟩
  obtain ⟨met, inner, rest, split, -⟩ := id drops
  have found : ⟨other, inner⟩ ∈ discovered segments := by rw [split]; simp
  obtain ⟨-, around, -, there⟩ := exists_place_of_mem_discovered found
  cases ordered.eq_of_start_eq there here same
  exact drops

theorem mem_references (ordered : Place.InOrder (places none segments)) {statement : Statement} :
    statement ∈ s.references segments ↔ s.Refers (s.Drops segments) segments statement := by
  rw [references, List.mem_filter, collected]
  have agree : ∀ block children, (∃ outer, ⟨outer, .block block children⟩ ∈ places none segments) →
      block.kind = .table →
        (block.start ∈ (Assembly.ofSegments s segments).value.dropped ↔ s.Drops segments block) :=
    fun block children here _ => here.elim fun outer => mem_dropped_iff_drops ordered
  exact mem_statements_iff agree

theorem pairwise_references (ordered : Place.InOrder (places none segments)) :
    (s.references segments).Pairwise fun a b => a.position < b.position := by
  have starts : ((places none segments).map Place.start).Pairwise (· < ·) :=
    List.pairwise_map.2 ordered
  refine List.Pairwise.filter _ (List.pairwise_map.1 (starts.sublist ?_))
  exact sublist_positions s _ true none segments

theorem filterMap_references {α : Type} {f : Statement → Option α}
    (other : ∀ statement, statement.isReference = false → f statement = none) :
    (s.references segments).filterMap f = (s.collected segments).filterMap f := by
  rw [references, List.filterMap_filter]
  refine List.filterMap_congr fun statement _ => ?_
  cases reference : statement.isReference with
  | true => rw [if_pos rfl]
  | false => rw [if_neg (by decide), other statement reference]

theorem accepted?_eq_none (statement : Statement) (other : statement.isReference = false) :
    s.accepted? statement = none := by
  cases statement with
  | reference position range name => cases other
  | unknown position => rfl
  | nested position => rfl

theorem rejection?_eq_none (statement : Statement) (other : statement.isReference = false) :
    s.rejection? statement = none := by
  cases statement with
  | reference position range name => cases other
  | unknown position => rfl
  | nested position => rfl

/-! ## What is noted of references -/

theorem rejection?_of_refused {statement : Statement} (reference : statement.isReference = true)
    (refused : s.accepted? statement = none) :
    ∃ fault, s.rejection? statement = some ⟨statement.position, .rejectedReference fault⟩ := by
  cases statement with
  | reference position range name =>
    rw [accepted?] at refused
    rw [rejection?]
    cases read : s.reference range name with
    | ok accepted => rw [read] at refused; cases refused
    | error fault => exact ⟨fault, rfl⟩
  | unknown position => cases reference
  | nested position => cases reference

theorem statedRelationship_rejections (s : Source) (statement : Statement) :
    (s.statedRelationship statement).findings.filter (·.cause.isRejection) =
      (s.rejection? statement).toList := by
  cases statement with
  | reference position range name =>
    rw [statedRelationship, rejection?]
    cases s.reference range name with
    | ok reference =>
      dsimp only
      split <;> rfl
    | error fault => rfl
  | unknown position => rfl
  | nested position => rfl

/-- While the tables and groups are read, no reference is rejected. -/
theorem rejections_ofSegments (s : Source) (segments : List Segment) :
    (Assembly.ofSegments s segments).findings.filter (·.cause.isRejection) = [] := by
  refine List.filter_eq_nil_iff.2 fun finding noted rejects => ?_
  have skips := Cause.skips_of_skipsLine (Cause.skipsLine_of_isRejection rejects)
  obtain ⟨place, -, -, passed⟩ := Assembly.tells_of_ofSegments noted skips
  rw [passed.isRejection] at rejects
  cases rejects

/-- The references that are noted to be rejected are those that are not accepted, in their order. -/
theorem rejections_assemble (s : Source) (segments : List Segment) :
    (s.assemble segments).findings.filter (·.cause.isRejection) =
      (s.references segments).filterMap s.rejection? := by
  rw [filterMap_references rejection?_eq_none, assemble, Noted.bind_findings, List.filter_append,
    rejections_ofSegments, List.nil_append, Noted.bind_findings, Noted.pure_findings,
    List.append_nil, statedRelationships_findings, List.filter_flatMap,
    List.filterMap_eq_flatMap_toList, collected]
  exact List.flatMap_congr fun statement _ => statedRelationship_rejections s statement

/-! ## The account of a database -/

/-- An account of the relationships of a database: those of its columns, then those of the
references, and what is noted of references that are not accepted. -/
structure Accounts (s : Source) (segments : List Segment) (database : Database)
    (inline : List Relationship) (statements : List Statement) : Prop where
  relationships : database.relationships =
    (inline ++ statements.filterMap s.accepted?).map (·.resolve database.tables)
  columns : List.Forall₂ (fun referrer relationship => s.Inlines referrer.1 referrer.2 relationship)
    (referrers database.tables) inline
  ordered : statements.Pairwise fun a b => a.position < b.position
  complete : ∀ statement,
    statement ∈ statements ↔ s.Refers (s.Drops segments) segments statement
  refused : ∀ statement ∈ statements, s.accepted? statement = none →
    ∃ fault, s.rejection? statement = some ⟨statement.position, .rejectedReference fault⟩
  rejected : (s.assemble segments).findings.filter (·.cause.isRejection) =
    statements.filterMap s.rejection?

/-- Every relationship of a database belongs to one column or one reference of its document, and of
every other reference it is noted why it makes none. -/
theorem accounts_of_parse (parsed : parse text = .ok database) :
    ∃ s segments inline statements, ofString text = .ok s ∧ s.scan = .ok segments ∧
      parseReport text false =
        .ok ⟨database, Diagnostic.sort ((s.assemble segments).findings.map s.diagnose)⟩ ∧
      s.Accounts segments database inline statements := by
  obtain ⟨s, segments, read, scanned, rfl⟩ := parse_eq_ok.1 parsed
  have ordered := inOrder_places scanned
  refine ⟨s, segments, (Assembly.ofSegments s segments).value.relationships, s.references segments,
    read, scanned, parseReport_false read scanned, ?_⟩
  refine ⟨?_, inlinesTables_ofSegments s segments, pairwise_references ordered,
    fun statement => mem_references ordered, fun statement listed refused => ?_,
    rejections_assemble s segments⟩
  · rw [filterMap_references accepted?_eq_none, ← statedRelationships_value]
    rfl
  · exact rejection?_of_refused (List.mem_filter.1 listed).2 refused

end Source

/-- A table whose column refers to a table of a group, with a reference that lacks its operator, a
reference in the group by an alias, and one in a repeated table that is dropped. -/
def referringText : String :=
  "Table a \x7b\nid int [ref: > b.id]\nRef: a.id\n\x7d\nTableGroup g \x7b\nTable b as A \x7b\n" ++
  "id int\n\x7d\nRef: A.id < a.id\n\x7d\nTable a \x7b\nRef: a.q > b.q\n\x7d\n"

theorem accounts_of_parse_referringText :
    ∃ database, parse referringText = .ok database ∧
      database.relationships.map (fun r => (r.fromTable, r.kind, r.toTable)) =
        [("a", .manyToOne, "b"), ("b", .oneToMany, "a")] ∧
      ∃ s segments inline statements, Source.ofString referringText = .ok s ∧
        s.scan = .ok segments ∧ parseReport referringText false =
          .ok ⟨database, Diagnostic.sort ((s.assemble segments).findings.map s.diagnose)⟩ ∧
        s.Accounts segments database inline statements := by
  have evaluated : (parse referringText).toOption.map
      (·.relationships.map fun r => (r.fromTable, r.kind, r.toTable)) =
      some [("a", .manyToOne, "b"), ("b", .oneToMany, "a")] := by decide +kernel
  obtain ⟨database, read, relationships⟩ := Option.map_eq_some_iff.1 evaluated
  have parsed := eq_ok_of_toOption read
  exact ⟨database, parsed, relationships, Source.accounts_of_parse parsed⟩

end Dbml
