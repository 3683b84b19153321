import Dbml.Proofs.Assembly.Claims
import Dbml.Proofs.Segment.Headers
import Dbml.Proofs.Table.Body
import Dbml.Proofs.Document.Parse

/-!
# Members named as their tables

A line of a group names its member by the dotted name that the heading of the member's table begins
with: the line claims the key that the table has. Main statement: `dotted_names_agree`.
-/

namespace Dbml

open Segment

namespace Source

variable {s : Source} {segments children : List Segment} {block : Block} {found : TableBlock}
  {around : Option Block} {header : Header} {schema : Option String} {name : String}

/-! ## The keys of tables -/

/-- A key has its dots where the name has them. -/
theorem tableKey_of_tableName? (named : tableName? header = some (schema, name)) :
    tableKey schema name = ".".intercalate header.nameParts := by
  obtain ⟨last, ends, same⟩ := Option.map_eq_some_iff.1 named
  obtain ⟨front, parts⟩ := List.getLast?_eq_some_iff.1 ends
  rw [parts, List.dropLast_concat] at same
  obtain ⟨rfl, rfl⟩ := Prod.mk.inj same
  rw [parts]
  cases front with
  | nil => simp [tableKey]
  | cons first others =>
    rw [String.intercalate_append_of_ne_nil (by simp) (by simp), String.intercalate_singleton]
    rfl

theorem tableName?_eq_none : tableName? header = none ↔ header.nameParts = [] := by
  rw [tableName?, Option.map_eq_none_iff, List.getLast?_eq_none_iff]

/-- A block with a name declares a table under that name, unless nothing stands between its
braces. -/
theorem map_key_declared? (named : found.block.header.nameParts ≠ []) :
    (s.declared? found).map DeclaredTable.key =
      if s.hasEmptyBody found.block then none
      else some (".".intercalate found.block.header.nameParts) := by
  cases declared : s.declared? found with
  | none =>
    have empty := (declared?_eq_none.1 declared).resolve_left (named ∘ tableName?_eq_none.1)
    rw [if_pos empty, Option.map_none]
  | some table =>
    have solid : ¬ s.hasEmptyBody found.block = true := fun empty => by
      rw [declared?_eq_none.2 (.inr empty)] at declared
      cases declared
    rw [if_neg solid, Option.map_some, DeclaredTable.key,
      tableKey_of_tableName? (tableName?_of_declaredTable declared)]

/-! ## Names in a document -/

/-- The blocks of a document that begin with a word are named by what their headers begin with. -/
theorem readsName_of_place (scanned : s.scan = .ok segments)
    (listed : ⟨around, .block block children⟩ ∈ places none segments)
    (keyword : block.kind ≠ .other "") :
    s.ReadsName ⟨block.start + 1, block.opening⟩ block.header.nameParts := by
  obtain ⟨same, bound⟩ := blockAt_of_place scanned listed
  have kind : block.kind = s.kindAt block.start := by rw [same]; rfl
  have header : block.header = s.header block.kind ⟨block.start + 1, block.opening⟩ := by
    rw [kind, same]
    rfl
  rw [header]
  exact (readsName_header keyword (Nat.le_of_lt bound)).1

/-- The headers of blocks and the lines of groups are named alike. A line claims for its group what
a table declares whose heading begins with the same name. -/
structure NamesAlike (s : Source) (segments : List Segment) : Prop where
  headers : ∀ around block children, ⟨around, .block block children⟩ ∈ places none segments →
    block.kind ≠ .other "" →
    s.ReadsName ⟨block.start + 1, block.opening⟩ block.header.nameParts
  /-- A line that is a dotted name claims its key. -/
  claims : ∀ line texts, DottedName (s.tokens line) texts → ∀ group o,
    Assembly.applyGroupSegment s (some group) o (.line line) = do
      let assembly ← o.assembly.claimAt group (".".intercalate texts) line.start
      return { o with assembly }
  /-- No other line claims anything, and none does in a group without a name. -/
  others : ∀ number line, number = none ∨ BreaksName (s.tokens line) → ∀ o,
    (Assembly.applyGroupSegment s number o (.line line)).value.assembly = o.assembly
  /-- A table declares the key of its name, unless not a byte stands between its braces. -/
  declares : ∀ found ∈ discovered segments, ∀ stop texts,
    s.EndsName ⟨found.block.start + 1, found.block.opening⟩ stop →
    DottedName (s.tokens ⟨found.block.start + 1, stop⟩) texts →
    (s.declared? found).map DeclaredTable.key =
      if s.hasEmptyBody found.block then none else some (".".intercalate texts)
  /-- The groups list the keys that are claimed, and those of the tables declared in them first. -/
  members : ∀ key, (∃ g ∈ (s.assemble segments).value.tableGroups, key ∈ g.tables) ↔
    s.NamesMember segments key ∨
      Declaration.FirstGrouped (segments.flatMap s.groupDeclares) key

theorem namesAlike_of_scan (scanned : s.scan = .ok segments) : s.NamesAlike segments where
  headers _ _ _ listed keyword := readsName_of_place scanned listed keyword
  claims _ _ spells group o := Assembly.applyGroupSegment_name spells group o
  others _ _ other o := Assembly.applyGroupSegment_other other o
  declares found met stop texts ends spells := by
    obtain ⟨kind, around, -, listed⟩ := exists_place_of_mem_discovered met
    have reads := readsName_of_place scanned listed (by simp [kind])
    have names : found.block.header.nameParts = texts :=
      Option.some.inj ((reads.parts stop ends).symm.trans (nameParts_eq_some_iff.2 spells))
    have named : found.block.header.nameParts ≠ [] := fun unnamed =>
      reads.unnamed_iff.1 unnamed stop ends
    rw [map_key_declared? named, names]
  members key := Assembly.listed_iff s segments key

end Source

/-- Tokens are read as a name exactly when they are a dotted name, with the texts of the names in
order, and are refused exactly when something breaks the name. On the tokens of the name in a header
the reading gives what the header is named, and so a line of a group claims what a table of that
name declares. -/
theorem dotted_names_agree :
    (∀ tokens texts, nameParts tokens = some texts ↔ DottedName tokens texts) ∧
    (∀ tokens, nameParts tokens = none ↔ BreaksName tokens) ∧
    (∀ (s : Source) kind range, kind ≠ .other "" → range.stop ≤ s.size →
      s.ReadsName range (s.header kind range).nameParts ∧ ∀ stop, s.EndsName range stop →
        s.nameEnd kind range = stop ∨
          s.isMark stop .dot = true ∧ s.nameEnd kind range = stop + 1) ∧
    ∀ (s : Source) segments, s.scan = .ok segments → s.NamesAlike segments :=
  ⟨fun _ _ => nameParts_eq_some_iff, fun _ => nameParts_eq_none_iff,
    fun _ _ _ keyword bound => Source.readsName_header keyword bound,
    fun _ _ scanned => Source.namesAlike_of_scan scanned⟩

/-- A group with a member in quotes and a line that ends in a dot, and the table of the member, with
a dot behind its name that no name follows. -/
def memberText : String :=
  "TableGroup g \x7b\nauth.\"users\"\nposts.\n\x7d\n" ++
  "Table \"auth\".users. [note: 'n'] \x7b\nid int\n\x7d\n"

theorem dotted_names_agree_memberText :
    ∃ s segments, Source.ofString memberText = .ok s ∧ s.scan = .ok segments ∧
      nameParts (s.tokens ⟨4, 7⟩) = some ["auth", "users"] ∧
      DottedName (s.tokens ⟨4, 7⟩) ["auth", "users"] ∧
      nameParts (s.tokens ⟨8, 10⟩) = none ∧ BreaksName (s.tokens ⟨8, 10⟩) ∧
      s.EndsName ⟨14, 23⟩ 17 ∧ s.ReadsName ⟨14, 23⟩ (s.header .table ⟨14, 23⟩).nameParts ∧
      s.nameEnd .table ⟨14, 23⟩ = 18 ∧ s.NamesAlike segments ∧
      s.NamesMember segments "auth.users" ∧
      (s.assemble segments).value.tables.map Table.key = ["auth.users"] := by
  have evaluated : (Source.ofString memberText).toOption.bind (fun s =>
      s.scan.toOption.map fun segments => decide (s.size = 30 ∧
        nameParts (s.tokens ⟨4, 7⟩) = some ["auth", "users"] ∧
        s.tokens ⟨8, 10⟩ = [.ident "posts", .mark .dot] ∧
        nameParts (s.tokens ⟨14, 17⟩) = some ["auth", "users"] ∧
        s.nameAt? 18 23 = none ∧ s.nameEnd .table ⟨14, 23⟩ = 18 ∧
        (s.assemble segments).value.tableGroups.map (·.tables) = [["auth.users"]] ∧
        (segments.flatMap s.groupDeclares).map (·.key) = [] ∧
        (s.assemble segments).value.tables.map Table.key = ["auth.users"])) = some true := by
    decide +kernel
  obtain ⟨s, segments, read, scanned, found⟩ := exists_of_scanned evaluated
  obtain ⟨size, member, dot, name, last, next, groups, apart, tables⟩ := of_decide_eq_true found
  have broken : BreaksName (s.tokens ⟨8, 10⟩) := by
    rw [dot]
    exact .trailing [.ident "posts"]
  have bound : 23 ≤ s.size := by omega
  have ends : s.EndsName ⟨14, 23⟩ 17 :=
    Source.endsName_of_dottedName bound (by decide) (nameParts_eq_some_iff.1 name) (.inr last)
  have alike := dotted_names_agree.2.2.2 s segments scanned
  have named : s.NamesMember segments "auth.users" := by
    have listed : ["auth.users"] ∈ (s.assemble segments).value.tableGroups.map (·.tables) := by
      rw [groups]
      exact List.mem_singleton_self _
    obtain ⟨g, there, same⟩ := List.mem_map.1 listed
    have either := (alike.members "auth.users").1 ⟨g, there, by simp [same]⟩
    refine either.resolve_right fun declared => ?_
    rw [List.map_eq_nil_iff.1 apart] at declared
    obtain ⟨_, none, -⟩ := declared
    cases none
  exact ⟨s, segments, read, scanned, member, (dotted_names_agree.1 _ _).1 member,
    (dotted_names_agree.2.1 _).2 broken, broken, ends,
    (dotted_names_agree.2.2.1 s .table ⟨14, 23⟩ (by decide) bound).1, next, alike, named, tables⟩

end Dbml
