import Dbml.DeclaredTable
import Dbml.Proofs.Respacing.Tokens
import Dbml.Proofs.Segment.Places

/-!
# Where line ends may be added

Line ends may be added behind another one, before the brace of a known block whose header has no
colon outside brackets, and inside the braces of a known block with something between them. Main
statement: `mayPart_of_shiftBy`, which tokens are parted when breaks are put at such places.
-/

namespace Dbml

open Segment Source

/-- One of the places has the block. -/
def HasBlock (ps : List Place) (block : Block) : Prop :=
  ∃ place ∈ ps, ∃ children, place.segment = .block block children

namespace Source

/-- Line ends may be added at the byte. -/
inductive MayBreak (s : Source) (segments : List Segment) : Nat → Prop
  | line {i : Nat} {span : Span} (newline : s.token? i = some .newline)
    (here : s.span? i = some span) : MayBreak s segments span.stop
  | header {block : Block} {span : Span} (listed : HasBlock (places none segments) block)
    (known : block.kind.isOther = false)
    (plain : s.outsideSettings ⟨block.start, block.opening⟩ .colon = none)
    (here : s.span? block.opening = some span) : MayBreak s segments span.start
  | bodyStart {block : Block} {span : Span} (listed : HasBlock (places none segments) block)
    (known : block.kind.isOther = false) (filled : s.hasEmptyBody block = false)
    (here : s.span? block.opening = some span) : MayBreak s segments span.stop
  | bodyEnd {block : Block} {span : Span} (listed : HasBlock (places none segments) block)
    (known : block.kind.isOther = false) (filled : s.hasEmptyBody block = false)
    (here : s.span? block.closing = some span) : MayBreak s segments span.start

/-- Line ends may be added behind the token, with the blocks at the places. -/
inductive MayPart (s : Source) (ps : List Place) (i : Nat) : Prop
  | line (newline : s.token? i = some .newline)
  | header {block : Block} (listed : HasBlock ps block) (known : block.kind.isOther = false)
    (plain : s.outsideSettings ⟨block.start, block.opening⟩ .colon = none)
    (next : block.opening = i + 1)
  | bodyStart {block : Block} (listed : HasBlock ps block) (known : block.kind.isOther = false)
    (filled : s.hasEmptyBody block = false) (here : block.opening = i)
  | bodyEnd {block : Block} (listed : HasBlock ps block) (known : block.kind.isOther = false)
    (filled : s.hasEmptyBody block = false) (next : block.closing = i + 1)

variable {s : Source} {segments : List Segment} {i p : Nat}

/-! ## The bytes at which line ends may be added -/

/-- The bytes before and behind the braces of a block. -/
def blockBreaks (s : Source) (block : Block) : List Nat :=
  if block.kind.isOther then []
  else
    (if (s.outsideSettings ⟨block.start, block.opening⟩ .colon).isNone then
      (s.span? block.opening).toList.map (·.start) else []) ++
    if s.hasEmptyBody block then []
    else (s.span? block.opening).toList.map (·.stop) ++ (s.span? block.closing).toList.map (·.start)

/-- The bytes at which line ends may be added. -/
def breakPlaces (s : Source) (segments : List Segment) : List Nat :=
  (s.lexemes.toList.filter (·.token == .newline)).map (·.span.stop) ++
    (places none segments).flatMap fun place =>
      match place.segment with
      | .block b _ => s.blockBreaks b
      | .line _ => []

theorem mem_blockBreaks {block : Block} : p ∈ s.blockBreaks block ↔
    block.kind.isOther = false ∧
      (s.outsideSettings ⟨block.start, block.opening⟩ .colon = none ∧
          (∃ span, s.span? block.opening = some span ∧ span.start = p) ∨
        s.hasEmptyBody block = false ∧
          ((∃ span, s.span? block.opening = some span ∧ span.stop = p) ∨
            ∃ span, s.span? block.closing = some span ∧ span.start = p)) := by
  unfold blockBreaks
  cases block.kind.isOther with
  | true => simp
  | false =>
    cases s.outsideSettings ⟨block.start, block.opening⟩ .colon <;> cases s.hasEmptyBody block <;>
      simp

theorem mem_newlineStops :
    p ∈ (s.lexemes.toList.filter (·.token == .newline)).map (·.span.stop) ↔
      ∃ i span, s.token? i = some .newline ∧ s.span? i = some span ∧ span.stop = p := by
  simp only [List.mem_map, List.mem_filter, beq_iff_eq]
  constructor
  · rintro ⟨lexeme, ⟨listed, newline⟩, rfl⟩
    obtain ⟨i, inside, rfl⟩ := List.getElem_of_mem listed
    rw [Array.length_toList] at inside
    refine ⟨i, _, ?_, by rw [span?, Array.getElem?_eq_getElem inside]; rfl, rfl⟩
    rw [token?, Array.getElem?_eq_getElem inside]
    exact congrArg some newline
  · rintro ⟨i, span, newline, here, rfl⟩
    obtain ⟨lexeme, found, rfl⟩ := Option.map_eq_some_iff.1 here
    rw [token?, found, Option.map_some, Option.some.injEq] at newline
    exact ⟨lexeme, ⟨Array.mem_toList_iff.2 (Array.mem_of_getElem? found), newline⟩, rfl⟩

theorem mayBreak_iff : s.MayBreak segments p ↔ p ∈ s.breakPlaces segments := by
  rw [breakPlaces, List.mem_append, mem_newlineStops, List.mem_flatMap]
  have own {block : Block} (listed : HasBlock (places none segments) block)
      (within : p ∈ s.blockBreaks block) : ∃ place ∈ places none segments,
        p ∈ match place.segment with
          | .block b _ => s.blockBreaks b
          | .line _ => [] := by
    obtain ⟨place, there, children, same⟩ := listed
    exact ⟨place, there, by rw [same]; exact within⟩
  constructor
  · intro may
    cases may with
    | line newline here => exact .inl ⟨_, _, newline, here, rfl⟩
    | header listed known plain here =>
      exact .inr (own listed (mem_blockBreaks.2 ⟨known, .inl ⟨plain, _, here, rfl⟩⟩))
    | bodyStart listed known filled here =>
      exact .inr (own listed (mem_blockBreaks.2 ⟨known, .inr ⟨filled, .inl ⟨_, here, rfl⟩⟩⟩))
    | bodyEnd listed known filled here =>
      exact .inr (own listed (mem_blockBreaks.2 ⟨known, .inr ⟨filled, .inr ⟨_, here, rfl⟩⟩⟩))
  · rintro (⟨i, span, newline, here, rfl⟩ | ⟨place, there, within⟩)
    · exact .line newline here
    · cases same : place.segment with
      | line range =>
        rw [same] at within
        cases within
      | block b children =>
        rw [same] at within
        have listed : HasBlock (places none segments) b := ⟨place, there, children, same⟩
        obtain ⟨known, ⟨plain, span, here, rfl⟩ |
            ⟨filled, ⟨span, here, rfl⟩ | ⟨span, here, rfl⟩⟩⟩ := mem_blockBreaks.1 within
        · exact .header listed known plain here
        · exact .bodyStart listed known filled here
        · exact .bodyEnd listed known filled here

instance (s : Source) (segments : List Segment) (p : Nat) : Decidable (s.MayBreak segments p) :=
  decidable_of_iff _ mayBreak_iff.symm

/-! ## Which tokens are parted -/

theorem MayBreak.placed (may : s.MayBreak segments p) :
    ∃ i span, s.span? i = some span ∧ (p = span.start ∨ p = span.stop) := by
  cases may with
  | line newline here => exact ⟨_, _, here, .inr rfl⟩
  | header listed known plain here => exact ⟨_, _, here, .inl rfl⟩
  | bodyStart listed known filled here => exact ⟨_, _, here, .inr rfl⟩
  | bodyEnd listed known filled here => exact ⟨_, _, here, .inl rfl⟩

/-- Tokens are parted by breaks only where line ends may be added. -/
theorem mayPart_of_shiftBy {breaks : Nat → Nat} (run : Token.Run 0 s.chars s.lexemes.toList)
    (may : ∀ p, breaks p ≠ 0 → s.MayBreak segments p)
    (differ : s.shiftBy breaks i ≠ s.shiftBy breaks (i + 1)) :
    s.MayPart (places none segments) i := by
  obtain ⟨p, span, broken, here, low, high⟩ := exists_break run differ
  have solid {j : Nat} {a : Span} (found : s.span? j = some a) : a.start < a.stop := by
    obtain ⟨l, listed, rfl⟩ := span?_eq_some found
    exact (run.bounds l (List.mem_of_getElem? listed)).2.1
  have between {j : Nat} {a : Span} (later : i + 1 < j) (found : s.span? j = some a) :
      ∃ next : Span, p ≤ next.start ∧ next.start < next.stop ∧ next.stop ≤ a.start := by
    have bound := lt_size_of_span? found
    obtain ⟨next, second⟩ := exists_span? (s := s) (i := i + 1) (by omega)
    exact ⟨next, high next second, solid second, span_apart run later second found⟩
  -- The token that ends at the break, and the one that begins there.
  have ends {j : Nat} {a : Span} (found : s.span? j = some a) (last : p = a.stop) : j = i := by
    have some_byte := solid found
    rcases Nat.lt_trichotomy j i with less | same | greater
    · have := span_apart run less found here
      omega
    · exact same
    · rcases Nat.lt_or_eq_of_le greater with later | rfl
      · obtain ⟨next, behind, wide, before⟩ := between later found
        omega
      · have := high a found
        omega
  have begins {j : Nat} {a : Span} (found : s.span? j = some a) (first : p = a.start) :
      j = i + 1 := by
    have some_byte := solid found
    rcases Nat.lt_trichotomy j (i + 1) with less | same | greater
    · rcases Nat.lt_or_eq_of_le (Nat.le_of_lt_succ less) with earlier | rfl
      · have := span_apart run earlier found here
        omega
      · rw [found] at here
        cases here
        omega
    · exact same
    · obtain ⟨next, behind, wide, before⟩ := between greater found
      omega
  cases may p broken with
  | line newline found =>
    cases ends found rfl
    exact .line newline
  | header listed known plain found => exact .header listed known plain (begins found rfl)
  | bodyStart listed known filled found => exact .bodyStart listed known filled (ends found rfl)
  | bodyEnd listed known filled found => exact .bodyEnd listed known filled (begins found rfl)

/-- Only the blocks that touch the gap behind a token matter there. -/
theorem MayPart.restrict {ps qs : List Place} (may : s.MayPart ps i)
    (touching : ∀ block, HasBlock ps block →
      block.opening = i + 1 ∨ block.opening = i ∨ block.closing = i + 1 → HasBlock qs block) :
    s.MayPart qs i := by
  cases may with
  | line newline => exact .line newline
  | header listed known plain next => exact .header (touching _ listed (.inl next)) known plain next
  | bodyStart listed known filled here =>
    exact .bodyStart (touching _ listed (.inr (.inl here))) known filled here
  | bodyEnd listed known filled next =>
    exact .bodyEnd (touching _ listed (.inr (.inr next))) known filled next

/-- Behind a token that no block touches only a line end lets others be added. -/
theorem MayPart.newline {ps : List Place} (may : s.MayPart ps i)
    (apart : ∀ block, HasBlock ps block →
      ¬ (block.opening = i + 1 ∨ block.opening = i ∨ block.closing = i + 1)) :
    s.token? i = some .newline := by
  cases may with
  | line newline => exact newline
  | header listed known plain next => exact absurd (.inl next) (apart _ listed)
  | bodyStart listed known filled here => exact absurd (.inr (.inl here)) (apart _ listed)
  | bodyEnd listed known filled next => exact absurd (.inr (.inr next)) (apart _ listed)

end Source

/-! ## Blocks of a document -/

variable {s : Source} {segments children rest : List Segment} {around : Option Block} {b x : Block}
  {range : TokenRange}

theorem hasBlock_line : HasBlock (places around (.line range :: rest)) x ↔
    HasBlock (places around rest) x := by
  simp [HasBlock, places, inside]

theorem hasBlock_block : HasBlock (places around (.block b children :: rest)) x ↔
    b = x ∨ HasBlock (places (some b) children) x ∨ HasBlock (places around rest) x := by
  simp [HasBlock, places, inside, or_and_right, exists_or]

/-- The braces of the blocks of a document stand within its tokens. -/
theorem Partition.braces (partition : Partition s range segments) (around : Option Block)
    (listed : HasBlock (places around segments) x) :
    range.start ≤ x.opening ∧ x.opening < x.closing ∧ x.closing < range.stop := by
  induction partition generalizing around with
  | @intro range segments tiles lines blocks known others ih =>
  obtain ⟨place, there, inner, same⟩ := listed
  rw [places_eq_flatMap] at there
  obtain ⟨segment, member, there⟩ := List.mem_flatMap.1 there
  have bounds := tiles.inside segment.extent (List.mem_map_of_mem member)
  cases segment with
  | line line =>
    simp only [inside, List.mem_singleton] at there
    rw [there] at same
    cases same
  | block b children =>
    have first := (blocks b children member).start_le
    have second := (blocks b children member).opening_lt
    simp only [extent] at bounds
    rcases List.mem_cons.1 there with own | within
    · rw [own] at same
      cases same
      omega
    · have some_child : b.kind.isOther = false := by
        refine Bool.eq_false_iff.2 fun other => ?_
        rw [others b children member other] at within
        cases within
      have := ih b children member some_child (some b) ⟨place, within, inner, same⟩
      simp only [Block.body] at this
      omega

/-- Where line ends may be added when a block comes first: behind another one, before its opening
brace, at its body, in its body, or behind it. -/
inductive NearBlock (s : Source) (around : Option Block) (b : Block)
    (children rest : List Segment) (k : Nat) : Prop
  | line (newline : s.token? k = some .newline)
  | header (known : b.kind.isOther = false)
    (plain : s.outsideSettings ⟨b.start, b.opening⟩ .colon = none) (next : b.opening = k + 1)
  | body (filled : s.hasEmptyBody b = false) (touching : b.opening = k ∨ b.closing = k + 1)
  | inside (low : b.opening ≤ k) (high : k + 1 < b.closing)
    (may : s.MayPart (places (some b) children) k)
  | behind (low : b.closing ≤ k) (may : s.MayPart (places around rest) k)

theorem Source.MayPart.near {k : Nat}
    (may : s.MayPart (places around (.block b children :: rest)) k)
    (inner : ∀ x, HasBlock (places (some b) children) x →
      b.opening + 1 ≤ x.opening ∧ x.opening < x.closing ∧ x.closing < b.closing)
    (behind : ∀ x, HasBlock (places around rest) x →
      b.closing + 1 ≤ x.opening ∧ x.opening < x.closing) :
    NearBlock s around b children rest k := by
  cases may with
  | line newline => exact .line newline
  | @header x listed known plain next =>
    rcases hasBlock_block.1 listed with rfl | within | later
    · exact .header known plain next
    · have := inner x within
      exact .inside (by omega) (by omega) (.header within known plain next)
    · have := behind x later
      exact .behind (by omega) (.header later known plain next)
  | @bodyStart x listed known filled here =>
    rcases hasBlock_block.1 listed with rfl | within | later
    · exact .body filled (.inl here)
    · have := inner x within
      exact .inside (by omega) (by omega) (.bodyStart within known filled here)
    · have := behind x later
      exact .behind (by omega) (.bodyStart later known filled here)
  | @bodyEnd x listed known filled next =>
    rcases hasBlock_block.1 listed with rfl | within | later
    · exact .body filled (.inr next)
    · have := inner x within
      exact .inside (by omega) (by omega) (.bodyEnd within known filled next)
    · have := behind x later
      exact .behind (by omega) (.bodyEnd later known filled next)

end Dbml
