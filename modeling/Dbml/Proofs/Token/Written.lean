import Dbml.Proofs.Token.Spelling

/-!
# Texts that are written token by token

A text is put together from tokens with their spellings and the white space around them. Main
statement: `tokenize_chars`, such a text is read as these tokens at these places, provided each of
them is read back in front of what follows it.
-/

namespace Dbml.Token

open Text

/-- A token as it stands in a text, with white space on both sides. -/
structure Written where
  token : Token
  spelling : List Char
  before : List Char := []
  after : List Char := []

namespace Written

/-! ## The text and the places -/

def chars (ws : List Written) : List Char :=
  ws.flatMap fun w => w.before ++ w.spelling ++ w.after

/-- The tokens with their places, when the first of them is written from byte `offset` on. -/
def lexemes (offset : Nat) : List Written → List Lexeme
  | [] => []
  | w :: ws =>
    let start := offset + byteSize w.before
    let stop := start + byteSize w.spelling
    ⟨w.token, ⟨start, stop⟩⟩ :: lexemes (stop + byteSize w.after) ws

@[simp] theorem chars_nil : chars [] = [] := rfl

@[simp] theorem chars_cons (w : Written) (ws : List Written) :
    chars (w :: ws) = w.before ++ (w.spelling ++ (w.after ++ chars ws)) := by
  simp [chars]

@[simp] theorem chars_append (ws us : List Written) : chars (ws ++ us) = chars ws ++ chars us := by
  simp [chars]

@[simp] theorem lexemes_length (offset : Nat) (ws : List Written) :
    (lexemes offset ws).length = ws.length := by
  induction ws generalizing offset with
  | nil => rfl
  | cons w ws ih => simp [lexemes, ih]

theorem lexemes_append (offset : Nat) (ws us : List Written) :
    lexemes offset (ws ++ us) = lexemes offset ws ++ lexemes (offset + byteSize (chars ws)) us := by
  induction ws generalizing offset with
  | nil => simp [lexemes]
  | cons w ws ih =>
    simp only [List.cons_append, lexemes, ih, chars_cons, byteSize_append]
    simp only [Nat.add_assoc]

/-! ## Reading back -/

/-- White space without line ends. -/
def IsGap (cs : List Char) : Prop :=
  ∀ c ∈ cs, isBlank c = true ∧ c ≠ '\n'

/-- The token is read back from its spelling when the characters `rest` come after it. -/
structure ReadsBack (w : Written) (rest : List Char) : Prop where
  before : IsGap w.before
  after : IsGap w.after
  /-- The spelling begins with no character that is passed over before a token. -/
  read : ∃ c cs, w.spelling = c :: cs ∧ (c = '\n' ∨ isBlank c = false ∧ c ≠ '/') ∧
    readToken c (cs ++ (w.after ++ rest)) = some ⟨w.token, cs, w.after ++ rest⟩

/-- Each of the tokens is read back in front of those after it and then `rest`. -/
def AllReadBack : List Written → List Char → Prop
  | [], _ => True
  | w :: ws, rest => w.ReadsBack (chars ws ++ rest) ∧ AllReadBack ws rest

@[simp] theorem allReadBack_nil (rest : List Char) : AllReadBack [] rest := trivial

@[simp] theorem allReadBack_cons {w : Written} {ws : List Written} {rest : List Char} :
    AllReadBack (w :: ws) rest ↔ w.ReadsBack (chars ws ++ rest) ∧ AllReadBack ws rest := Iff.rfl

@[simp] theorem allReadBack_append {ws us : List Written} {rest : List Char} :
    AllReadBack (ws ++ us) rest ↔ AllReadBack ws (chars us ++ rest) ∧ AllReadBack us rest := by
  induction ws with
  | nil => simp
  | cons w ws ih => simp [ih, and_assoc]

theorem isGap_nil : IsGap [] := by
  intro c listed
  cases listed

theorem isGap_append {cs ds : List Char} (first : IsGap cs) (second : IsGap ds) :
    IsGap (cs ++ ds) := by
  intro c listed
  rcases List.mem_append.1 listed with listed | listed
  · exact first c listed
  · exact second c listed

/-- A gap is passed over up to the character behind it. -/
theorem skipGap_gap {gap : List Char} (blank : IsGap gap) (offset : Nat) (cs : List Char)
    (stops : ∀ c ∈ cs.head?, c = '\n' ∨ isBlank c = false ∧ c ≠ '/') :
    Cursor.skipGap offset (gap ++ cs) = ⟨offset + byteSize gap, cs⟩ := by
  induction gap generalizing offset with
  | nil =>
    cases cs with
    | nil => rw [List.nil_append, Cursor.skipGap]; rfl
    | cons c cs =>
      have stop := stops c (by simp)
      have solid : c ≠ '/' := by
        rintro rfl
        rcases stop with same | ⟨_, other⟩
        · cases same
        · exact other rfl
      have kept : ¬ (c ≠ '\n' ∧ isBlank c = true) := by
        rintro ⟨inline, here⟩
        rcases stop with same | ⟨other, _⟩
        · exact inline same
        · rw [other] at here; cases here
      rw [List.nil_append, Cursor.skipGap, if_neg kept]
      · rfl
      all_goals (intro _ same; exact absurd same solid)
  | cons g gap ih =>
    have here := blank g (by simp)
    have solid : g ≠ '/' := by
      rintro rfl
      exact absurd here.1 (by decide)
    rw [List.cons_append, Cursor.skipGap, if_pos ⟨here.2, here.1⟩,
      ih (fun c listed => blank c (List.mem_cons_of_mem _ listed))]
    · simp [Nat.add_assoc]
    all_goals (intro _ same; exact absurd same solid)

/-- Behind a gap comes the token that is written there. -/
theorem next_written {w : Written} {rest : List Char} (back : w.ReadsBack rest) {gap : List Char}
    (blank : IsGap gap) (offset : Nat) :
    let start := offset + byteSize gap + byteSize w.before
    let stop := start + byteSize w.spelling
    Cursor.next ⟨offset, gap ++ (w.before ++ (w.spelling ++ (w.after ++ rest)))⟩ =
      .token ⟨w.token, ⟨start, stop⟩⟩ ⟨stop, w.after ++ rest⟩ := by
  obtain ⟨c, cs, spelled, stops, read⟩ := back.read
  have skipped := skipGap_gap (isGap_append blank back.before) offset
    (c :: (cs ++ (w.after ++ rest))) (by simpa using stops)
  rw [List.append_assoc] at skipped
  simp [Cursor.next, spelled, skipped, read, Nat.add_assoc]

/-- Reading goes through all written tokens, behind a gap and those already read. -/
theorem tokens_written {ws : List Written} (back : AllReadBack ws []) {gap : List Char}
    (blank : IsGap gap) (offset : Nat) (done : Array Lexeme) :
    Cursor.tokens ⟨offset, gap ++ chars ws⟩ done =
      .ok (done ++ (lexemes (offset + byteSize gap) ws).toArray) := by
  induction ws generalizing gap offset done with
  | nil =>
    have skipped := skipGap_gap blank offset [] (by simp)
    have ended : Cursor.next ⟨offset, gap ++ chars []⟩ = .finished := by
      simp only [chars_nil, Cursor.next, skipped]
    rw [Cursor.tokens]
    split
    · simp [lexemes]
    next read => rw [ended] at read; cases read
    next read => rw [ended] at read; cases read
  | cons w ws ih =>
    obtain ⟨first, others⟩ := allReadBack_cons.1 back
    rw [List.append_nil] at first
    have step := next_written first blank offset
    rw [chars_cons, Cursor.tokens]
    split
    next read => rw [step] at read; cases read
    next read => rw [step] at read; cases read
    next lexeme after read =>
      rw [step] at read
      cases read
      rw [ih others first.after]
      simp [lexemes]

/-- A text written token by token is read as these tokens at these places. -/
theorem tokenize_chars {ws : List Written} (back : AllReadBack ws []) :
    tokenize (chars ws) = .ok (lexemes 0 ws).toArray := by
  have read := tokens_written back isGap_nil 0 #[]
  simpa [tokenize, Cursor.start] using read

end Written

end Dbml.Token
