import Dbml.Proofs.Respacing.Headers
import Dbml.Proofs.Segment.Layout
import Dbml.Proofs.Segment.Places

/-!
# Written headers

The header of a block is a keyword, a dotted name, perhaps an alias behind the word `as`, and
perhaps settings in brackets. The brace behind it opens the block, whatever names and settings it
has: `as` and the keywords are names too, and settings may hold braces and colons. Main statement:
`scanFrom_written`.
-/

namespace Dbml

/-! ## What is written -/

/-- A name as it is written: a bare word or a quoted text. -/
inductive WrittenName
  | bare (text : String)
  | quoted (text : String)
  deriving DecidableEq, Repr

namespace WrittenName

def text : WrittenName → String
  | bare text => text
  | quoted text => text

def token : WrittenName → Token
  | bare text => .ident text
  | quoted text => .str text

theorem name?_token (name : WrittenName) : name.token.name? = some name.text := by
  cases name <;> rfl

end WrittenName

/-- What is written in front of the brace of a block. -/
structure WrittenHeader where
  keyword : String
  /-- A word has a letter. -/
  isWord : keyword ≠ ""
  firstName : WrittenName
  moreNames : List WrittenName
  /-- The word in front of the alias, and the alias. -/
  aliasing : Option (String × WrittenName)
  isAs : ∀ word name, aliasing = some (word, name) → Token.sameWord word "as" = true
  /-- The tokens between the brackets. -/
  settings : Option (List Token)
  inline : ∀ inner, settings = some inner → .newline ∉ inner
  balanced : ∀ inner, settings = some inner → Balanced .openBracket .closeBracket inner

namespace WrittenHeader

variable (written : WrittenHeader)

def names : List WrittenName :=
  written.firstName :: written.moreNames

def kind : BlockKind :=
  .ofToken (.ident written.keyword)

def nameTokens : List Token :=
  (written.names.map (·.token)).intersperse (.mark .dot)

def aliasTokens : List Token :=
  match written.aliasing with
  | none => []
  | some (word, name) => [.ident word, name.token]

def settingTokens : List Token :=
  match written.settings with
  | none => []
  | some inner => .mark .openBracket :: inner ++ [.mark .closeBracket]

/-- The tokens in front of the settings. -/
def frontTokens : List Token :=
  .ident written.keyword :: (written.nameTokens ++ written.aliasTokens)

def tokens : List Token :=
  written.frontTokens ++ written.settingTokens

/-- What is read of a header that is written from token `i` on. -/
def header (i : Nat) : Header :=
  { nameParts := written.names.map (·.text)
    aliasName := written.aliasing.map (·.2.text)
    settings := written.settings.map fun inner =>
      ⟨i + written.frontTokens.length + 1, i + written.frontTokens.length + 1 + inner.length⟩ }

/-- The block with the header, when `breaks` line ends stand in front of its brace. -/
def block (i breaks : Nat) (body : List Token) : Block :=
  { kind := written.kind
    start := i
    header := written.header i
    opening := i + written.tokens.length + breaks
    closing := i + written.tokens.length + breaks + body.length + 1 }

variable {written}

theorem aliasTokens_of_none (aliased : written.aliasing = none) : written.aliasTokens = [] := by
  rw [aliasTokens, aliased]

theorem aliasTokens_of_some {word : String} {name : WrittenName}
    (aliased : written.aliasing = some (word, name)) :
    written.aliasTokens = [.ident word, name.token] := by
  rw [aliasTokens, aliased]

theorem settingTokens_of_none (given : written.settings = none) : written.settingTokens = [] := by
  rw [settingTokens, given]

theorem settingTokens_of_some {inner : List Token} (given : written.settings = some inner) :
    written.settingTokens = .mark .openBracket :: inner ++ [.mark .closeBracket] := by
  rw [settingTokens, given]

theorem kind_ne_other : written.kind ≠ .other "" := by
  intro same
  rw [kind, BlockKind.ofToken] at same
  cases found : BlockKind.known.find? fun kind => Token.sameWord written.keyword kind.word with
  | none =>
    rw [found] at same
    exact written.isWord (by simpa using same)
  | some kind =>
    rw [found, Option.getD_some] at same
    subst same
    have listed := List.mem_of_find?_eq_some found
    simp [BlockKind.known] at listed

/-! ## Words, quoted texts and dots -/

theorem eq_or_mem_of_mem_intersperse {α : Type} {x separator : α} {xs : List α}
    (listed : x ∈ xs.intersperse separator) : x = separator ∨ x ∈ xs := by
  induction xs with
  | nil => exact .inr listed
  | cons first rest ih =>
    cases rest with
    | nil => exact .inr listed
    | cons next rest =>
      rw [List.intersperse_cons_cons, List.mem_cons, List.mem_cons] at listed
      rcases listed with rfl | same | behind
      · exact .inr List.mem_cons_self
      · exact .inl same
      · exact (ih behind).imp_right (List.mem_cons_of_mem _)

/-- In front of the settings stand words, quoted texts and dots only. -/
theorem mem_frontTokens {t : Token} (listed : t ∈ written.frontTokens) :
    t = .mark .dot ∨ ∃ name : WrittenName, t = name.token := by
  rcases List.mem_cons.1 listed with rfl | listed
  · exact .inr ⟨.bare written.keyword, rfl⟩
  rcases List.mem_append.1 listed with inName | inAlias
  · rcases eq_or_mem_of_mem_intersperse inName with dot | listed
    · exact .inl dot
    · obtain ⟨name, -, rfl⟩ := List.mem_map.1 listed
      exact .inr ⟨name, rfl⟩
  · cases aliased : written.aliasing with
    | none =>
      rw [aliasTokens_of_none aliased] at inAlias
      cases inAlias
    | some pair =>
      rw [aliasTokens_of_some aliased] at inAlias
      rcases List.mem_pair.1 inAlias with rfl | rfl
      · exact .inr ⟨.bare pair.1, rfl⟩
      · exact .inr ⟨pair.2, rfl⟩

theorem ne_mark_of_mem_frontTokens {t : Token} {mark : Mark} (listed : t ∈ written.frontTokens)
    (other : mark ≠ .dot) : t ≠ .mark mark := by
  rcases mem_frontTokens listed with rfl | ⟨name, rfl⟩
  · intro same
    exact other (Token.mark.inj same).symm
  · cases name <;> simp [WrittenName.token]

theorem newline_notMem_tokens : .newline ∉ written.tokens := by
  intro listed
  rcases List.mem_append.1 listed with front | inSettings
  · rcases mem_frontTokens front with same | ⟨name, same⟩
    · cases same
    · cases name <;> cases same
  · cases given : written.settings with
    | none =>
      rw [settingTokens_of_none given] at inSettings
      cases inSettings
    | some inner =>
      rw [settingTokens_of_some given] at inSettings
      have outside := written.inline inner given
      simp [outside] at inSettings

end WrittenHeader

/-- Where what is scanned around the place ends. -/
def Place.stop (place : Place) (s : Source) : Nat :=
  place.around.elim s.size (·.closing)

namespace Source

open WrittenHeader

variable {s : Source} {written : WrittenHeader} {i stop : Nat}

/-! ## The header is read -/

/-- Settings that are written are found between their brackets, and none where none are. -/
theorem bracketed?_of_written (reads : s.Reads i written.settingTokens) :
    s.bracketed? i (i + written.settingTokens.length) =
      written.settings.map fun inner => ⟨i + 1, i + 1 + inner.length⟩ := by
  rw [bracketed?]
  cases given : written.settings with
  | none =>
    rw [settingTokens_of_none given]
    exact if_neg fun both => Nat.lt_irrefl _ both.1
  | some inner =>
    rw [settingTokens_of_some given] at reads ⊢
    have length : i + (Token.mark .openBracket :: inner ++ [Token.mark .closeBracket]).length =
        i + inner.length + 1 + 1 := by
      simp only [List.cons_append, List.length_cons, List.length_append, List.length_nil]
      omega
    have closes := matching_eq_some (by decide) reads (written.balanced inner given)
      (Nat.lt_succ_self _)
    rw [length, if_pos ⟨by omega, isMark_iff_token?.2 reads.1⟩, closes, Option.map_some,
      Option.map_some, Nat.add_right_comm]

/-- Where no alias is written, a bracket stands or nothing. -/
theorem not_aliased_of_written (reads : s.Reads i written.settingTokens) :
    ¬ (i + 1 < i + written.settingTokens.length ∧ s.isKeyword i "as" = true) := by
  rintro ⟨inside, word⟩
  cases given : written.settings with
  | none =>
    rw [settingTokens_of_none given] at inside
    exact Nat.not_succ_lt_self inside
  | some inner =>
    rw [settingTokens_of_some given] at reads
    rw [isKeyword_of_token? reads.1] at word
    cases word

theorem headerBehind_of_written (names : List String)
    (reads : s.Reads i (written.aliasTokens ++ written.settingTokens)) :
    s.headerBehind names i (i + (written.aliasTokens ++ written.settingTokens).length) =
      { nameParts := names
        aliasName := written.aliasing.map (·.2.text)
        settings := written.settings.map fun inner =>
          ⟨i + written.aliasTokens.length + 1,
            i + written.aliasTokens.length + 1 + inner.length⟩ } := by
  obtain ⟨aliasReads, settingReads⟩ := reads_append.1 reads
  have settings := bracketed?_of_written settingReads
  rw [List.length_append, ← Nat.add_assoc, headerBehind]
  cases aliased : written.aliasing with
  | none =>
    rw [aliasTokens_of_none aliased, List.length_nil, Nat.add_zero] at settingReads settings
    rw [aliasTokens_of_none aliased, List.length_nil]
    simp only [Nat.add_zero]
    rw [if_neg (not_aliased_of_written settingReads), settings]
    rfl
  | some pair =>
    obtain ⟨word, name⟩ := pair
    have length : i + [Token.ident word, name.token].length = i + 2 := rfl
    rw [aliasTokens_of_some aliased] at aliasReads settings ⊢
    rw [length] at settings ⊢
    obtain ⟨first, second, -⟩ := aliasReads
    have isAs : s.isKeyword i "as" = true := by
      rw [isKeyword_of_token? first]
      exact written.isAs word name aliased
    have named : s.nameAt? (i + 1) (i + 2 + written.settingTokens.length) = some name.text := by
      rw [nameAt?_of_token? second (by omega), name.name?_token]
    rw [if_pos ⟨by omega, isAs⟩, named, settings]
    rfl

/-- Behind the name stands no dot. -/
theorem not_dot_of_written (reads : s.Reads i (written.aliasTokens ++ written.settingTokens)) :
    ¬ (i < i + (written.aliasTokens ++ written.settingTokens).length ∧
      s.isMark i .dot = true) := by
  rintro ⟨inside, dot⟩
  cases aliased : written.aliasing with
  | some pair =>
    rw [aliasTokens_of_some aliased] at reads
    rw [isMark_of_token? reads.1] at dot
    cases dot
  | none =>
    rw [aliasTokens_of_none aliased, List.nil_append] at reads inside
    cases given : written.settings with
    | none =>
      rw [settingTokens_of_none given] at inside
      exact Nat.lt_irrefl _ inside
    | some inner =>
      rw [settingTokens_of_some given] at reads
      rw [isMark_of_token? reads.1] at dot
      cases dot

/-- A written header is read back. -/
theorem header_of_written (reads : s.Reads i written.tokens) :
    s.header written.kind ⟨i + 1, i + written.tokens.length⟩ = written.header i := by
  have tokens : written.tokens = .ident written.keyword ::
      (written.nameTokens ++ (written.aliasTokens ++ written.settingTokens)) := by
    rw [WrittenHeader.tokens, frontTokens, List.cons_append, List.append_assoc]
  rw [tokens] at reads
  obtain ⟨nameReads, behind⟩ := reads_append.1 reads.2
  have stop : i + written.tokens.length = i + 1 + written.nameTokens.length +
      (written.aliasTokens ++ written.settingTokens).length := by
    rw [tokens, List.length_cons, List.length_append]
    omega
  have name : s.dottedName (i + 1) (i + written.tokens.length) =
      (written.names.map (·.text), i + 1 + written.nameTokens.length) := by
    have named : (written.names.map (·.token)).map Token.name? =
        (written.names.map (·.text)).map some := by
      rw [List.map_map, List.map_map]
      exact List.map_congr_left fun name _ => name.name?_token
    rw [stop]
    exact dottedName_of_names (by simp [names]) named nameReads (Nat.le_add_right _ _)
      (not_dot_of_written behind)
  have front : i + 1 + written.nameTokens.length + written.aliasTokens.length =
      i + written.frontTokens.length := by
    rw [frontTokens, List.length_cons, List.length_append]
    omega
  rw [header_eq, if_neg kind_ne_other, name, stop, headerBehind_of_written _ behind, front]
  rfl

/-! ## The brace that opens the block -/

/-- Outside brackets, a written header has no marks but dots. -/
theorem findOutsideFrom_written (mark : Mark) (other : mark ≠ .dot)
    (reads : s.Reads i written.tokens) (count : Nat) :
    s.findOutsideFrom .openBracket .closeBracket (·.isMark mark) 0 i
        (written.tokens.length + count) =
      s.findOutsideFrom .openBracket .closeBracket (·.isMark mark) 0
        (i + written.tokens.length) count := by
  obtain ⟨front, inSettings⟩ := reads_append.1 reads
  have plain : ∀ t ∈ written.frontTokens, t ≠ .mark .openBracket ∧ t ≠ .mark .closeBracket ∧
      t.isMark mark = false := by
    intro t listed
    refine ⟨ne_mark_of_mem_frontTokens listed (by decide),
      ne_mark_of_mem_frontTokens listed (by decide), ?_⟩
    simpa [Token.isMark] using ne_mark_of_mem_frontTokens listed other
  rw [WrittenHeader.tokens, List.length_append, Nat.add_assoc,
    findOutsideFrom_skip front plain, ← Nat.add_assoc]
  cases given : written.settings with
  | none => rw [settingTokens_of_none given, List.length_nil, Nat.zero_add, Nat.add_zero]
  | some inner =>
    exact findOutsideFrom_wrap (by decide) (settingTokens_of_some given)
      (written.balanced inner given) inSettings count

theorem outsideSettings_written {mark : Mark} (other : mark ≠ .dot)
    (reads : s.Reads i written.tokens) :
    s.outsideSettings ⟨i, i + written.tokens.length⟩ mark = none := by
  have passed := findOutsideFrom_written mark other reads 0
  rw [outsideSettings, findOutside?, TokenRange.size, Nat.add_sub_cancel_left]
  exact passed

/-- The brace behind a written header opens a block: on its line, or on a later one for a
keyword. -/
theorem openingBrace_written {breaks : Nat}
    (reads : s.Reads i (written.tokens ++ (.replicate breaks .newline ++ [.mark .openBrace])))
    (known : 0 < breaks → written.kind.isOther = false)
    (inside : i + written.tokens.length + breaks < stop) :
    s.openingBrace ⟨i, s.lineEnd i stop⟩ stop = some (i + written.tokens.length + breaks) := by
  obtain ⟨header, behind⟩ := reads_append.1 reads
  have line : ∀ k, i ≤ k → k < i + written.tokens.length → s.token? k ≠ some .newline :=
    fun k low high newline => newline_notMem_tokens (mem_of_reads header low high newline)
  cases breaks with
  | zero =>
    obtain ⟨brace, -⟩ := behind
    have here : s.outsideSettings ⟨i, i + written.tokens.length + 1⟩ .openBrace =
        some (i + written.tokens.length) := by
      have passed := findOutsideFrom_written .openBrace (by decide) header 1
      rw [outsideSettings, findOutside?, TokenRange.size, Nat.add_assoc, Nat.add_sub_cancel_left,
        passed, findOutsideFrom_here brace (by decide) (by decide) rfl]
    have onLine : i + written.tokens.length + 1 ≤ s.lineEnd i stop := by
      refine le_lineEnd (by omega) (by omega) fun k low high => ?_
      by_cases last : k = i + written.tokens.length
      · rw [last, brace]
        simp
      · exact line k low (by omega)
    rw [openingBrace, outsideSettings_longer onLine here]
    rfl
  | succ more =>
    have ends : s.lineEnd i stop = i + written.tokens.length :=
      lineEnd_eq_of_newline (Nat.le_add_right _ _) (by omega) line behind.1
    have kind : s.kindAt i = written.kind := kindAt_of_token? header.1
    have next := find?_eq_some (p := (· != .newline)) behind
      (fun t listed => by rw [(List.mem_replicate.1 listed).2]; rfl) rfl
      (by rw [List.length_replicate]; exact inside)
    rw [List.length_replicate] at next
    have brace : s.isMark (i + written.tokens.length + (more + 1)) .openBrace = true := by
      have last := (reads_append.1 behind).2.1
      rw [List.length_replicate] at last
      exact isMark_iff_token?.2 last
    rw [ends, openingBrace, outsideSettings_written (by decide) header, Option.none_or,
      braceOnNextLine, kind, known (Nat.succ_pos more), outsideSettings_written (by decide) header,
      if_neg (by simp), next, Option.filter_some, if_pos brace]

/-! ## The block -/

theorem newlines_of_reads {n : Nat} (reads : s.Reads i (.replicate n .newline)) :
    s.Newlines i (i + n) := by
  intro k low high
  induction n generalizing i with
  | zero => omega
  | succ n ih =>
    rcases Nat.lt_or_eq_of_le low with later | rfl
    · exact ih reads.2 later (by omega)
    · exact reads.1

/-- A scan that comes to a written header takes its block, and goes on behind it. -/
theorem scanFrom_writtenBlock (limit : Option Nat) (depth : Nat) {breaks : Nat} {body : List Token}
    (reads : s.Reads i (written.tokens ++
      (.replicate breaks .newline ++ (.mark .openBrace :: body ++ [.mark .closeBrace]))))
    (known : 0 < breaks → written.kind.isOther = false)
    (balanced : Balanced .openBrace .closeBrace body)
    (inside : (written.block i breaks body).closing < stop) :
    s.scanFrom limit depth i stop = do
      let children ← s.blockChildren limit depth i (written.block i breaks body).opening
        (written.block i breaks body).closing
      let rest ← s.scanFrom limit depth ((written.block i breaks body).closing + 1) stop
      return .block (written.block i breaks body) children :: rest := by
  have inside : i + written.tokens.length + breaks + body.length + 1 < stop := inside
  obtain ⟨header, behind⟩ := reads_append.1 reads
  obtain ⟨newlines, braces⟩ := reads_append.1 behind
  rw [List.length_replicate] at braces
  have upToBrace : s.Reads i
      (written.tokens ++ (.replicate breaks .newline ++ [.mark .openBrace])) := by
    refine reads_append.2 ⟨header, reads_append.2 ⟨newlines, ?_⟩⟩
    rw [List.length_replicate]
    exact ⟨braces.1, trivial⟩
  have opens : s.openingBrace ⟨i, s.lineEnd i stop⟩ stop =
      some (i + written.tokens.length + breaks) :=
    openingBrace_written upToBrace known (by omega)
  have closes := matching_eq_some (by decide) braces balanced inside
  have solid : ¬ s.holds i (· == .newline) = true := by
    rw [holds_of_token? header.1]
    simp
  have kind : s.kindAt i = written.kind := kindAt_of_token? header.1
  have between := newlines_of_reads newlines
  have block : s.blockAt i (i + written.tokens.length + breaks)
      (i + written.tokens.length + breaks + body.length + 1) = written.block i breaks body := by
    rw [blockAt, kind, header_newlines between (Nat.le_add_right _ _), header_of_written header]
    rfl
  rw [scanFrom_block (by omega) solid opens closes, block]
  rfl

/-- Every segment of a scan is the first one of a scan that begins with it, and begins with no line
end. -/
theorem scanFrom_of_place {s : Source} {limit : Option Nat} {depth i stop : Nat}
    {segments : List Segment} {around : Option Block} {place : Place} (bound : stop ≤ s.size)
    (scanned : s.scanFrom limit depth i stop = .ok segments)
    (ends : around.elim s.size (·.closing) = stop)
    (listed : place ∈ Segment.places around segments) :
    s.token? place.start ≠ some .newline ∧ ∃ depth rest,
      s.scanFrom limit depth place.start (place.stop s) = .ok (place.segment :: rest) := by
  induction size : stop - i using Nat.strongRecOn generalizing depth i stop segments around with
  | ind n ih =>
  rcases scanFrom_cases scanned with ⟨done, rfl⟩ | ⟨inside, newline, later⟩ |
    ⟨inside, line, rest, later, rfl⟩ |
    ⟨inside, line, opening, closing, children, rest, opens, closes, within, later, rfl⟩
  · cases listed
  · exact ih _ (by omega) bound later ends listed rfl
  · have ahead := lineEnd_gt inside fun here => line (holds_newline.1 here)
    rw [Segment.places, Segment.inside, List.nil_append, List.mem_cons] at listed
    rcases listed with rfl | behind
    · refine ⟨line, depth, rest, ?_⟩
      rw [Place.stop, ends]
      exact scanned
    · exact ih _ (by omega) bound later ends behind rfl
  · obtain ⟨framed, last⟩ := framed_blockAt inside bound line opens closes
    have first := framed.start_le
    have order := framed.opening_lt
    simp only [blockAt] at first order
    rw [Segment.places, Segment.inside, List.mem_cons, List.mem_append] at listed
    rcases listed with rfl | inner | behind
    · refine ⟨line, depth, rest, ?_⟩
      rw [Place.stop, ends]
      exact scanned
    · rcases blockChildren_eq_ok.1 within with ⟨-, rfl⟩ | ⟨-, -, found⟩
      · cases inner
      · exact ih _ (by omega) (by omega) found rfl inner rfl
    · exact ih _ (by omega) bound later ends behind rfl

theorem exists_scanFrom_of_place {s : Source} {limit : Option Nat} {depth i stop : Nat}
    {segments : List Segment} {around : Option Block} {place : Place} (bound : stop ≤ s.size)
    (scanned : s.scanFrom limit depth i stop = .ok segments)
    (ends : around.elim s.size (·.closing) = stop)
    (listed : place ∈ Segment.places around segments) :
    ∃ depth rest, s.scanFrom limit depth place.start (place.stop s) =
      .ok (place.segment :: rest) :=
  (scanFrom_of_place bound scanned ends listed).2

/-- The block of a place is the one that its tokens make between its braces. -/
theorem blockAt_of_place {s : Source} {segments children : List Segment} {around : Option Block}
    {block : Block} (scanned : s.scan = .ok segments)
    (listed : ⟨around, .block block children⟩ ∈ Segment.places none segments) :
    block = s.blockAt block.start block.opening block.closing ∧ block.opening < s.size := by
  obtain ⟨line, depth, rest, here⟩ :=
    scanFrom_of_place (Nat.le_refl _) (scan_eq_ok.1 scanned) rfl listed
  rcases scanFrom_cases here with ⟨-, none⟩ | ⟨-, newline, -⟩ | ⟨-, -, others, -, same⟩ |
    ⟨-, -, opening, closing, inner, others, opens, -, -, -, same⟩
  · cases none
  · exact absurd newline line
  · cases same
  · obtain ⟨made, -⟩ := Segment.block.inj (List.cons.inj same).1
    have opened : block.opening = opening := congrArg Block.opening made
    have closed : block.closing = closing := congrArg Block.closing made
    rw [opened, closed]
    exact ⟨made, lt_size_of_token? (isMark_iff_token?.1 (openingBrace_isMark opens))⟩

theorem exists_children {x y : Except ScanFault (List Segment)} {block : Block} {segment : Segment}
    {others : List Segment}
    (taken : (do let children ← x; let rest ← y; return .block block children :: rest) =
      Except.ok (segment :: others)) : ∃ children, segment = .block block children := by
  cases x with
  | error fault => cases taken
  | ok children =>
    cases y with
    | error fault => cases taken
    | ok rest =>
      injection taken with segments
      exact ⟨children, (List.cons.inj segments).1.symm⟩

/-- A written header is decoded exactly. Wherever a scan comes to one, it takes the block that opens
at the brace behind it, with the names, the alias and the settings that are written; and so does
the scan of a document. -/
theorem scanFrom_written {breaks : Nat} {body : List Token}
    (reads : s.Reads i (written.tokens ++
      (.replicate breaks .newline ++ (.mark .openBrace :: body ++ [.mark .closeBrace]))))
    (known : 0 < breaks → written.kind.isOther = false)
    (balanced : Balanced .openBrace .closeBrace body)
    (inside : i + written.tokens.length + breaks + body.length + 1 < stop) :
    ∃ block : Block, block.kind = written.kind ∧ block.start = i ∧
      block.opening = i + written.tokens.length + breaks ∧
      block.closing = block.opening + body.length + 1 ∧
      block.header.nameParts = written.names.map (·.text) ∧
      block.header.name? = some (".".intercalate (written.names.map (·.text))) ∧
      block.header.aliasName = written.aliasing.map (·.2.text) ∧
      block.header.settings = (written.settings.map fun inner =>
        ⟨i + written.frontTokens.length + 1,
          i + written.frontTokens.length + 1 + inner.length⟩) ∧
      block.header.settings.map s.tokens = written.settings ∧
      (∀ limit depth, s.scanFrom limit depth i stop = do
        let children ← s.blockChildren limit depth i block.opening block.closing
        let rest ← s.scanFrom limit depth (block.closing + 1) stop
        return .block block children :: rest) ∧
      ∀ segments, s.scan = .ok segments → ∀ place ∈ Segment.places none segments,
        place.start = i → place.stop s = stop →
        ∃ children, place.segment = .block block children := by
  have scans (limit : Option Nat) (depth : Nat) :=
    scanFrom_writtenBlock limit depth reads known balanced inside
  refine ⟨written.block i breaks body, rfl, rfl, rfl, rfl, rfl, rfl, rfl, rfl, ?_, scans, ?_⟩
  · show (written.header i).settings.map s.tokens = written.settings
    cases given : written.settings with
    | none => rw [WrittenHeader.header, given]; rfl
    | some inner =>
      obtain ⟨header, -⟩ := reads_append.1 reads
      obtain ⟨-, inSettings⟩ := reads_append.1 header
      rw [settingTokens_of_some given] at inSettings
      obtain ⟨among, -⟩ := reads_append.1 inSettings.2
      rw [WrittenHeader.header, given, Option.map_some, Option.map_some, tokens_of_reads among]
  · intro segments scanned place listed start ends
    obtain ⟨depth, rest, here⟩ :=
      exists_scanFrom_of_place (Nat.le_refl _) (scan_eq_ok.1 scanned) rfl listed
    rw [start, ends, scans] at here
    exact exists_children here

/-- A header with `as` for a name and a keyword for its alias, whose settings hold a brace, a colon
and brackets. -/
def bracedHeader : WrittenHeader where
  keyword := "table"
  isWord := by decide
  firstName := .bare "as"
  moreNames := [.quoted "my t"]
  aliasing := some ("AS", .bare "Ref")
  isAs := by
    rintro word name same
    cases same
    decide
  settings := some ([.ident "note", .mark .colon, .mark .openBrace] ++
    (.mark .openBracket :: [.mark .colon] ++ [.mark .closeBracket]))
  inline := by
    rintro inner same
    cases same
    decide
  balanced := by
    rintro inner same
    cases same
    refine balanced_append (balanced_of_others (by decide)) (balanced_wrap (by decide) ?_)
    exact balanced_of_others (by decide)

def bracedText : String :=
  "table as.\"my t\" AS Ref [note: \x7b [:]]\n\n\x7b a int \x7d\n"

theorem scanFrom_written_braced : ∃ s, ofString bracedText = .ok s ∧
    ∃ block : Block, block.opening = 16 ∧ block.header.name? = some "as.my t" ∧
      block.header.aliasName = some "Ref" ∧ block.header.settings = some ⟨7, 13⟩ ∧
      ∀ segments, s.scan = .ok segments → ∀ place ∈ Segment.places none segments,
        place.start = 0 → place.stop s = s.size →
        ∃ children, place.segment = .block block children := by
  have evaluated : (ofString bracedText).toOption.map (fun s => (s.tokens s.all, s.size)) =
      some (bracedHeader.tokens ++ (.replicate 2 .newline ++
        (.mark .openBrace :: [.ident "a", .ident "int"] ++ [.mark .closeBrace])) ++ [.newline],
        21) := by decide +kernel
  obtain ⟨s, read, both⟩ := Option.map_eq_some_iff.1 evaluated
  obtain ⟨tokens, size⟩ := Prod.mk.inj both
  have reads := reads_all s
  rw [tokens] at reads
  have inside : 0 + bracedHeader.tokens.length + 2 + 2 + 1 < s.size := by
    rw [size]
    decide
  obtain ⟨block, -, -, opening, -, -, name, aliasName, settings, -, -, scanned⟩ :=
    scanFrom_written (reads_append.1 reads).1 (fun _ => by decide)
      (balanced_of_others (by decide)) inside
  exact ⟨s, eq_ok_of_toOption read, block, opening, name, aliasName, settings, scanned⟩

end Source

end Dbml
