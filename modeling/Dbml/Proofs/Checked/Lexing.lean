import Dbml.Proofs.Checked.Text

/-!
# Tokens read inside bounds

Where a stroke or a quote stands, the text is cut to see what begins there, and so is the text of a
string of several lines. Main statement: `ofString_eq`, no cut fails, and the line of quotes that
are not closed is found.
-/

namespace Dbml

open Text

namespace Token

/-- The place is one in the text: all characters before it are passed. -/
def Cursor.In (here : Cursor) (cs : List Char) : Prop :=
  ∃ front, cs = front ++ here.rest ∧ here.offset = byteSize front

namespace Cursor

variable {cs follow : List Char} {offset : Nat}

theorem In.append (part : List Char) (inside : In ⟨offset, part ++ follow⟩ cs) :
    In ⟨offset + byteSize part, follow⟩ cs := by
  obtain ⟨front, rfl, rfl⟩ := inside
  exact ⟨front ++ part, by simp, by simp⟩

theorem In.from? (inside : In ⟨offset, follow⟩ cs) : from? cs offset = some follow := by
  obtain ⟨front, rfl, rfl⟩ := inside
  exact from?_append front follow

theorem In.skipLine (inside : In ⟨offset, follow⟩ cs) : (skipLine offset follow).In cs := by
  obtain ⟨body, rest, rfl, inline, ends⟩ := exists_line follow
  rw [skipLine_append inline ends]
  exact inside.append _

theorem In.skipComment (inside : In ⟨offset, follow⟩ cs) : (skipComment offset follow).In cs := by
  by_cases occurs : ['*', '/'] <:+: follow
  · obtain ⟨body, rest, rfl, first⟩ := exists_first_pair occurs
    rw [skipComment_append first]
    exact (inside.append body).append ['*', '/']
  · rw [skipComment_eq_end occurs]
    rw [← List.append_nil follow] at inside
    exact inside.append _

theorem In.skipGap (inside : In ⟨offset, follow⟩ cs) : (skipGap offset follow).In cs := by
  obtain ⟨gap, rest, rfl, -, -, skipped⟩ := exists_gap offset follow
  rw [skipped]
  exact inside.append _

end Cursor

end Token

namespace Checked

open Token Token.Cursor

/-! ## Gaps -/

/-- Passes over a gap in the text `cs`, as `Cursor.skipGap` does. -/
def skipGap (cs : List Char) (offset : Nat) : List Char → Option Cursor
  | [] => some ⟨offset, []⟩
  | c :: rest =>
    if c = '/' then do
      let ahead ← from? cs offset
      if ahead.take 2 = ['/', '/'] then
        let after := skipLine (offset + 2) (rest.drop 1)
        skipGap cs after.offset after.rest
      else if ahead.take 2 = ['/', '*'] then
        let after := skipComment (offset + 2) (rest.drop 1)
        skipGap cs after.offset after.rest
      else return ⟨offset, c :: rest⟩
    else if c ≠ '\n' ∧ isBlank c then skipGap cs (offset + c.utf8Size) rest
    else some ⟨offset, c :: rest⟩
termination_by rest => rest.length
decreasing_by
  · have := skipLine_length_le (offset + 2) (rest.drop 1)
    simp only [List.length_drop, List.length_cons] at this ⊢
    omega
  · have := skipComment_length_le (offset + 2) (rest.drop 1)
    simp only [List.length_drop, List.length_cons] at this ⊢
    omega
  · simp

theorem skipGap_eq {cs rest : List Char} {offset : Nat} (inside : In ⟨offset, rest⟩ cs) :
    skipGap cs offset rest = some (Cursor.skipGap offset rest) := by
  fun_induction Cursor.skipGap offset rest with
  | case1 offset => rw [skipGap]
  | case2 offset rest after ih =>
    have behind : In ⟨offset + 2, rest⟩ cs := inside.append ['/', '/']
    rw [skipGap, if_pos rfl, inside.from?]
    exact ih behind.skipLine
  | case3 offset rest after ih =>
    have behind : In ⟨offset + 2, rest⟩ cs := inside.append ['/', '*']
    rw [skipGap, if_pos rfl, inside.from?]
    exact ih behind.skipComment
  | case4 offset c rest noLine noComment blank ih =>
    have solid : c ≠ '/' := by
      rintro rfl
      rw [not_isBlank_slash] at blank
      cases blank.2
    have behind : In ⟨offset + c.utf8Size, rest⟩ cs := inside.append [c]
    rw [skipGap, if_neg solid, if_pos blank, ih behind]
  | case5 offset c rest noLine noComment solid =>
    rw [skipGap, inside.from?]
    by_cases slash : c = '/'
    · subst slash
      have line : ('/' :: rest).take 2 ≠ ['/', '/'] := by
        rintro same
        cases rest with
        | nil => cases same
        | cons d rest => cases same; exact noLine rest rfl rfl
      have comment : ('/' :: rest).take 2 ≠ ['/', '*'] := by
        rintro same
        cases rest with
        | nil => cases same
        | cons d rest => cases same; exact noComment rest rfl rfl
      rw [if_pos rfl, Option.bind_eq_bind, Option.bind_some, if_neg line, if_neg comment]
      rfl
    · rw [if_neg slash, if_neg solid]

/-! ## Tokens -/

/-- Reads the token that begins with `c` at byte `offset` of the text `cs`, as `Token.readToken`
does. -/
def readToken (cs : List Char) (offset : Nat) (c : Char) (rest : List Char) :
    Option (Option Reading) :=
  if c = '\'' then do
    let ahead ← from? cs offset
    if ahead.take 3 = tripleQuote then
      let behind ← from? cs (offset + 3)
      match splitTriple [] behind with
      | none => return none
      | some (raw, follow) =>
        let body ← cut? cs (offset + 3) (offset + 3 + byteSize raw)
        return some ⟨.multiStr (String.ofList (trim body)),
          '\'' :: '\'' :: body ++ ['\'', '\'', '\''], follow⟩
    else return Token.readToken c rest
  else return Token.readToken c rest

theorem readToken_eq {cs rest : List Char} {offset : Nat} {c : Char}
    (inside : In ⟨offset, c :: rest⟩ cs) :
    readToken cs offset c rest = some (Token.readToken c rest) := by
  by_cases quote : c = '\''
  swap
  · rw [readToken, if_neg quote]
    rfl
  subst quote
  rw [readToken, if_pos rfl, inside.from?, Option.bind_eq_bind, Option.bind_some]
  by_cases triple : ('\'' :: rest).take 3 = tripleQuote
  swap
  · rw [if_neg triple]
    rfl
  have two : rest.take 2 = ['\'', '\''] := (List.cons.inj triple).2
  obtain ⟨more, rfl⟩ : ∃ more, rest = '\'' :: '\'' :: more :=
    ⟨rest.drop 2, by rw [← List.take_append_drop 2 rest, two]; rfl⟩
  have behind : In ⟨offset + 3, more⟩ cs := inside.append tripleQuote
  rw [if_pos triple, behind.from?, Option.bind_some, Token.readToken, if_neg (by decide),
    if_pos ⟨rfl, two⟩]
  show _ = some ((splitTriple [] more).map _)
  cases split : splitTriple [] more with
  | none => rfl
  | some parts =>
    obtain ⟨raw, follow⟩ := parts
    have whole : raw ++ tripleQuote ++ follow = more := by
      simpa [tripleQuote] using splitTriple_append split
    obtain ⟨front, text, size⟩ := behind
    have cut : cut? cs (offset + 3) (offset + 3 + byteSize raw) = some raw := by
      have found := cut?_append front raw (tripleQuote ++ follow)
      simp only at text size
      rwa [List.append_assoc, ← List.append_assoc raw, whole, ← text, ← size] at found
    simp only [cut, Option.bind_some, Option.map_some]
    rfl

/-- What comes next in the text `cs`, as `Cursor.next` does. -/
def next (cs : List Char) (here : Cursor) : Option Step := do
  let begin ← skipGap cs here.offset here.rest
  match begin.rest with
  | [] => return .finished
  | c :: rest =>
    match ← readToken cs begin.offset c rest with
    | some r =>
      let stop := begin.offset + byteSize (c :: r.tail)
      return .token ⟨r.token, ⟨begin.offset, stop⟩⟩ ⟨stop, r.rest⟩
    | none => return .unterminated begin.offset ⟨begin.offset + 3, rest.drop 2⟩

theorem next_eq {cs : List Char} {here : Cursor} (inside : here.In cs) :
    next cs here = some here.next := by
  have begin := inside.skipGap
  rw [next, skipGap_eq inside, Option.bind_eq_bind, Option.bind_some, Cursor.next]
  cases front : (Cursor.skipGap here.offset here.rest).rest with
  | nil => rfl
  | cons c rest =>
    have first : In ⟨(Cursor.skipGap here.offset here.rest).offset, c :: rest⟩ cs := by
      rw [← front]
      exact begin
    simp only [readToken_eq first]
    cases Token.readToken c rest <;> rfl

theorem in_next {cs : List Char} {here after : Cursor} {lexeme : Lexeme} (inside : here.In cs)
    (next : here.next = .token lexeme after) : after.In cs := by
  rcases next_cases here.offset here.rest with ⟨-, finished⟩ |
    ⟨gap, c, tail, rest, token, parts, -, -, -, found⟩ | ⟨gap, behind, follow, -, -, -, found⟩
  · rw [show Cursor.mk here.offset here.rest = here from rfl, next] at finished
    cases finished
  · rw [show Cursor.mk here.offset here.rest = here from rfl, next] at found
    cases found
    have start : In ⟨here.offset, gap ++ (c :: tail ++ rest)⟩ cs := by
      rw [show gap ++ (c :: tail ++ rest) = here.rest by rw [parts]; rfl]
      exact inside
    exact start.append.append
  · rw [show Cursor.mk here.offset here.rest = here from rfl, next] at found
    cases found

/-- The tokens of the text `cs` from a place on, as `Cursor.tokens` gives them; none as well when
nothing is read. -/
def lexemes (cs : List Char) (here : Cursor) (done : Array Lexeme) :
    Option (Except Nat (Array Lexeme)) :=
  match next cs here with
  | none => none
  | some .finished => some (.ok done)
  | some (.unterminated start _) => some (.error start)
  | some (.token lexeme after) =>
    if after.rest.length < here.rest.length then lexemes cs after (done.push lexeme) else none
termination_by here.rest.length

theorem lexemes_eq {cs : List Char} {here : Cursor} (inside : here.In cs) (done : Array Lexeme) :
    lexemes cs here done = some (here.tokens done) := by
  induction size : here.rest.length using Nat.strongRecOn generalizing here done with
  | ind n ih =>
  rw [lexemes, next_eq inside]
  cases next : here.next with
  | finished => rw [tokens_of_finished next]
  | unterminated start after => rw [tokens_of_unterminated next]
  | token lexeme after =>
    have shorter := Cursor.next_token_shorter next
    rw [tokens_of_token next]
    simp only [if_pos shorter]
    exact ih _ (by omega) (in_next inside next) _ rfl

/-! ## Texts -/

/-- The source of a text, as `Source.ofString` gives it. -/
def ofString (text : String) : Option (Except LexError Source) := do
  match ← lexemes text.toList (Cursor.start text.toList) #[] with
  | .ok lexemes => return .ok ⟨text.toList, lexemes⟩
  | .error offset =>
    let location ← locate? text.toList offset
    return .error (.unterminatedString location)

theorem ofString_eq (text : String) : ofString text = some (Source.ofString text) := by
  have start : (Cursor.start text.toList).In text.toList := ⟨[], rfl, rfl⟩
  rw [ofString, lexemes_eq start, Source.ofString, ← tokenize]
  cases read : tokenize text.toList with
  | ok lexemes => rfl
  | error offset =>
    obtain ⟨before, after, -, parts, -, rfl, -⟩ := exists_of_tokenize_eq_error read
    have found := Location.locate?_append before (tripleQuote ++ after)
    rw [← parts] at found
    simp only [Option.bind_eq_bind, Option.bind_some, found]
    rfl

end Checked

end Dbml
