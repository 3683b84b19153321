import Dbml.Assembly
import Dbml.Proofs.Keywords.Tokens
import Dbml.Proofs.Respacing.Segments

/-!
# Where the keywords of a document stand

A keyword opens a known block, comes before the alias in a header, or begins one of the lines that
are read by their first word. Main statement: `Partition.keyword`, keywords are words among the
tokens of their segments.
-/

namespace Dbml

open Segment

namespace Source

/-- The word before the alias in the header of a block, if there is an alias. -/
def aliasWord? (s : Source) (block : Block) : Option Nat :=
  let i := s.nameEnd block.kind ⟨block.start + 1, block.opening⟩
  if i + 1 < block.opening ∧ s.isKeyword i "as" then some i else none

/-- Whether a line in the block begins with a keyword: `Ref` before a reference at the top level,
in a table or in a group, `Note` before a note in a table, a group or a project, and
`database_type` in a project. -/
def opensWithKeyword (s : Source) (around : Option Block) (line : TokenRange) : Bool :=
  match around.map Block.kind with
  | none => (s.shortForm? line).isSome
  | some .table | some .tableGroup => (s.shortForm? line).isSome || (s.noteLine? line).isSome
  | some .project => (s.noteLine? line).isSome || s.isKeyword line.start "database_type"
  | _ => false

/-- The keywords of a segment, those of the segments inside it left out. -/
def keywordsAt (s : Source) (place : Place) : List Nat :=
  match place.segment with
  | .line range => if s.opensWithKeyword place.around range then [range.start] else []
  | .block b _ => (if b.kind.isOther then [] else [b.start]) ++ (s.aliasWord? b).toList

/-- The keywords of segments in a block and of those inside them. -/
def keywordsIn (s : Source) (around : Option Block) (segments : List Segment) : List Nat :=
  (places around segments).flatMap s.keywordsAt

/-- The numbers of the tokens that are the keywords of a document. -/
def keywords (s : Source) (segments : List Segment) : List Nat :=
  s.keywordsIn none segments

/-- Where the keywords of a document stand. -/
def keywordSpans (s : Source) (segments : List Segment) : List Span :=
  (s.keywords segments).filterMap s.span?

/-- Whether the byte belongs to a keyword of the document. -/
def inKeyword (s : Source) (segments : List Segment) (p : Nat) : Bool :=
  (s.keywordSpans segments).any (·.covers p)

variable {s : Source} {around : Option Block} {block : Block} {children rest : List Segment}
  {line : TokenRange} {i k p : Nat}

theorem inKeyword_iff {segments : List Segment} : s.inKeyword segments p = true ↔
    ∃ i ∈ s.keywords segments, ∃ span, s.span? i = some span ∧ span.covers p = true := by
  simp only [inKeyword, keywordSpans, List.any_eq_true, List.mem_filterMap]
  exact ⟨fun ⟨span, ⟨i, listed, here⟩, covers⟩ => ⟨i, listed, span, here, covers⟩,
    fun ⟨i, listed, span, here, covers⟩ => ⟨span, ⟨i, listed, here⟩, covers⟩⟩

theorem mem_keywordsIn_line : k ∈ s.keywordsIn around (.line line :: rest) ↔
    k ∈ s.keywordsAt ⟨around, .line line⟩ ∨ k ∈ s.keywordsIn around rest := by
  simp [keywordsIn, places, inside]

theorem mem_keywordsIn_block : k ∈ s.keywordsIn around (.block block children :: rest) ↔
    k ∈ s.keywordsAt ⟨around, .block block children⟩ ∨ k ∈ s.keywordsIn (some block) children ∨
      k ∈ s.keywordsIn around rest := by
  simp [keywordsIn, places, inside]

theorem mem_keywordsAt_line : k ∈ s.keywordsAt ⟨around, .line line⟩ ↔
    s.opensWithKeyword around line = true ∧ k = line.start := by
  rw [keywordsAt]
  split <;> simp_all

theorem mem_keywordsAt_block : k ∈ s.keywordsAt ⟨around, .block block children⟩ ↔
    block.kind.isOther = false ∧ k = block.start ∨ s.aliasWord? block = some k := by
  rw [keywordsAt]
  cases other : block.kind.isOther <;> simp [other]

/-! ## Keywords are words -/

theorem word_of_isKeyword {keyword : String} (here : s.isKeyword i keyword = true) :
    ∃ word, s.token? i = some (.ident word) := by
  obtain ⟨token, found, same⟩ := (Option.any_eq_true _ _).1 here
  cases token with
  | ident word => exact ⟨word, found⟩
  | _ => cases same

theorem word_of_kindAt (known : (s.kindAt i).isOther = false) :
    ∃ word, s.token? i = some (.ident word) := by
  rw [kindAt] at known
  cases found : s.token? i with
  | none => rw [found] at known; cases known
  | some token =>
    rw [found] at known
    cases token with
    | ident word => exact ⟨word, rfl⟩
    | _ => cases known

theorem isKeyword_of_shortForm? (short : (s.shortForm? line).isSome = true) :
    s.isKeyword line.start "Ref" = true := by
  unfold shortForm? at short
  split at short
  next here => exact here
  · cases short

theorem isKeyword_of_noteLine? (note : (s.noteLine? line).isSome = true) :
    s.isKeyword line.start "Note" = true := by
  unfold noteLine? at note
  split at note
  next here => exact here.1
  · cases note

theorem word_of_opensWithKeyword (opens : s.opensWithKeyword around line = true) :
    ∃ word, s.token? line.start = some (.ident word) := by
  have either {x : Bool} (there : x = true → ∃ word, s.token? line.start = some (.ident word))
      (opens : (x || (s.noteLine? line).isSome) = true) :
      ∃ word, s.token? line.start = some (.ident word) := by
    rcases Bool.or_eq_true_iff.1 opens with first | note
    · exact there first
    · exact word_of_isKeyword (isKeyword_of_noteLine? note)
  have reference (short : (s.shortForm? line).isSome = true) :
      ∃ word, s.token? line.start = some (.ident word) :=
    word_of_isKeyword (isKeyword_of_shortForm? short)
  unfold opensWithKeyword at opens
  split at opens
  · exact reference opens
  · exact either reference opens
  · exact either reference opens
  · rw [Bool.or_comm] at opens
    exact either word_of_isKeyword opens
  · cases opens

theorem aliasWord?_bounds (found : s.aliasWord? block = some k) :
    block.start < k ∧ k + 1 < block.opening ∧ s.isKeyword k "as" = true := by
  obtain ⟨aliased, same⟩ := Option.ite_none_right_eq_some.1 found
  cases same
  exact ⟨nameEnd_ge block.kind ⟨block.start + 1, block.opening⟩, aliased⟩

end Source

open Source

/-- The keywords of segments are words among their tokens. -/
theorem Partition.keyword {s : Source} {range : TokenRange} {segments : List Segment} {k : Nat}
    (partition : Partition s range segments) (around : Option Block)
    (listed : k ∈ s.keywordsIn around segments) :
    range.start ≤ k ∧ k < range.stop ∧ ∃ word, s.token? k = some (.ident word) := by
  induction partition generalizing around with
  | @intro range segments tiles lines blocks known others ih =>
  rw [keywordsIn, places_eq_flatMap] at listed
  obtain ⟨place, there, here⟩ := List.mem_flatMap.1 listed
  obtain ⟨segment, member, there⟩ := List.mem_flatMap.1 there
  have bounds := tiles.inside segment.extent (List.mem_map_of_mem member)
  cases segment with
  | line line =>
    simp only [inside, List.mem_singleton] at there
    subst there
    obtain ⟨opens, rfl⟩ := mem_keywordsAt_line.1 here
    exact ⟨bounds.1, by have := bounds.2; simp only [extent] at this; omega,
      word_of_opensWithKeyword opens⟩
  | block b children =>
    have framed := blocks b children member
    have first := framed.start_le
    have second := framed.opening_lt
    simp only [extent] at bounds
    rcases List.mem_cons.1 there with rfl | within
    · rcases mem_keywordsAt_block.1 here with ⟨known, rfl⟩ | found
      · rw [framed.kind] at known
        exact ⟨bounds.1, by omega, word_of_kindAt known⟩
      · obtain ⟨low, high, word⟩ := aliasWord?_bounds found
        exact ⟨by omega, by omega, word_of_isKeyword word⟩
    · have some_child : b.kind.isOther = false := by
        refine Bool.eq_false_iff.2 fun other => ?_
        rw [others b children member other] at within
        cases within
      obtain ⟨low, high, word⟩ :=
        ih b children member some_child (some b) (List.mem_flatMap.2 ⟨place, within, here⟩)
      simp only [Block.body] at low high
      exact ⟨by omega, by omega, word⟩

namespace Source

variable {s : Source} {limit : Option Nat} {depth i stop opening closing k : Nat}
  {around : Option Block} {children rest : List Segment}

/-- A keyword of a scanned range that begins with a line belongs to the line or to what is behind. -/
theorem keyword_of_line (bound : stop ≤ s.size) (ahead : i < s.lineEnd i stop)
    (later : s.scanFrom limit depth (s.lineEnd i stop) stop = .ok rest)
    (listed : k ∈ s.keywordsIn around (.line ⟨i, s.lineEnd i stop⟩ :: rest)) :
    (k < s.lineEnd i stop → k ∈ s.keywordsAt ⟨around, .line ⟨i, s.lineEnd i stop⟩⟩) ∧
      (s.lineEnd i stop ≤ k → k ∈ s.keywordsIn around rest) := by
  rcases mem_keywordsIn_line.1 listed with here | behind
  · have first : k = i := (mem_keywordsAt_line.1 here).2
    exact ⟨fun _ => here, by omega⟩
  · have low := ((partition_of_scanFrom bound later).keyword _ behind).1
    simp only at low
    exact ⟨by omega, fun _ => behind⟩

/-- A keyword of a scanned range that begins with a block belongs to the header, to the body or to
what is behind. -/
theorem keyword_of_block (bound : stop ≤ s.size) (start : i ≤ opening) (order : opening < closing)
    (ends : closing < stop) (within : s.blockChildren limit depth i opening closing = .ok children)
    (later : s.scanFrom limit depth (closing + 1) stop = .ok rest)
    (listed : k ∈ s.keywordsIn around (.block (s.blockAt i opening closing) children :: rest)) :
    (k ≤ opening → k ∈ s.keywordsAt ⟨around, .block (s.blockAt i opening closing) children⟩) ∧
      (opening < k → k < closing →
        k ∈ s.keywordsIn (some (s.blockAt i opening closing)) children) ∧
      (closing < k → k ∈ s.keywordsIn around rest) := by
  rcases mem_keywordsIn_block.1 listed with here | inner | behind
  · have high : k ≤ opening := by
      rcases mem_keywordsAt_block.1 here with ⟨-, first⟩ | aliased
      · rw [first]
        exact start
      · have : k + 1 < opening := (aliasWord?_bounds aliased).2.1
        omega
    exact ⟨fun _ => here, by omega, by omega⟩
  · rcases blockChildren_eq_ok.1 within with ⟨-, rfl⟩ | ⟨-, -, scanned⟩
    · cases inner
    · have bounds := (partition_of_scanFrom (by omega) scanned).keyword _ inner
      simp only at bounds
      exact ⟨by omega, fun _ _ => inner, by omega⟩
  · have low := ((partition_of_scanFrom bound later).keyword _ behind).1
    simp only at low
    exact ⟨by omega, by omega, fun _ => behind⟩

end Source

end Dbml
