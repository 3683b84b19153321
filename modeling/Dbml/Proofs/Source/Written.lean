import Dbml.Proofs.Source.Contents
import Dbml.Proofs.Token.Written

/-!
# Sources that are written token by token

The source of a text that is put together from written tokens: which tokens stand from a number on,
which text a range of them covers, and where a token stands in it.
-/

namespace Dbml.Source

open Text
open Token (Written)

variable {s : Source} {i : Nat} {w : Written} {ws us : List Written}

/-- The source of a text that is written token by token. -/
def ofWritten (ws : List Written) : Source :=
  ⟨Written.chars ws, (Written.lexemes 0 ws).toArray⟩

theorem ofString_chars {ws : List Written} (back : Written.AllReadBack ws []) {text : String}
    (written : text.toList = Written.chars ws) : ofString text = .ok (ofWritten ws) := by
  rw [ofString, written, Written.tokenize_chars back]
  rfl

@[simp] theorem size_ofWritten (ws : List Written) : (ofWritten ws).size = ws.length := by
  simp [size, ofWritten]

/-- From number `i` on these tokens are written. -/
def Writes (s : Source) (i : Nat) (ws : List Written) : Prop :=
  ∃ before after, s = ofWritten (before ++ ws ++ after) ∧ before.length = i

theorem writes_ofWritten (ws : List Written) : (ofWritten ws).Writes 0 ws :=
  ⟨[], [], by simp, rfl⟩

theorem writes_append (writes : s.Writes i (ws ++ us)) :
    s.Writes i ws ∧ s.Writes (i + ws.length) us := by
  obtain ⟨before, after, rfl, rfl⟩ := writes
  constructor
  · exact ⟨before, us ++ after, by simp, rfl⟩
  · exact ⟨before ++ ws, after, by simp, by simp⟩

theorem writes_cons (writes : s.Writes i (w :: ws)) : s.Writes i [w] ∧ s.Writes (i + 1) ws :=
  writes_append (show s.Writes i ([w] ++ ws) from writes)

/-! ## Tokens and their spans -/

/-- A written token and its place. -/
theorem getElem?_ofWritten (before : List Written) (w : Written) (after : List Written) :
    (ofWritten (before ++ w :: after)).lexemes[before.length]? =
      some ⟨w.token, byteSize (Written.chars before) + byteSize w.before,
        byteSize (Written.chars before) + byteSize w.before + byteSize w.spelling⟩ := by
  simp [ofWritten, Written.lexemes_append, Written.lexemes]

theorem token?_of_writes (writes : s.Writes i (w :: ws)) : s.token? i = some w.token := by
  obtain ⟨before, after, rfl, rfl⟩ := writes
  rw [List.append_assoc, List.cons_append, token?, getElem?_ofWritten]
  rfl

theorem reads_of_writes (writes : s.Writes i ws) : s.Reads i (ws.map (·.token)) := by
  induction ws generalizing i with
  | nil => exact reads_nil
  | cons w ws ih => exact ⟨token?_of_writes writes, ih (writes_cons writes).2⟩

/-- The text of a range of written tokens is what they are written with, without the white space at
both ends. -/
theorem text_of_writes {first last : Written} (writes : s.Writes i ws)
    (starts : ws.head? = some first) (ends : ws.getLast? = some last)
    (front : first.before = []) (back : last.after = []) :
    s.text ⟨i, i + ws.length⟩ = String.ofList (Written.chars ws) := by
  obtain ⟨before, after, rfl, rfl⟩ := writes
  obtain ⟨tail, rfl⟩ := List.head?_eq_some_iff.1 starts
  obtain ⟨init, split⟩ := List.getLast?_eq_some_iff.1 ends
  have opening := getElem?_ofWritten before first (tail ++ after)
  have closing := getElem?_ofWritten (before ++ init) last after
  have number : before.length + (first :: tail).length - 1 = (before ++ init).length := by
    rw [split]; simp
  have cut := slice_append (Written.chars before) (Written.chars (first :: tail)) (Written.chars after)
  rw [text, if_neg (by simp [TokenRange.isEmpty]), span?, span?]
  simp only [number]
  rw [show before ++ (first :: tail) ++ after = before ++ first :: (tail ++ after) by simp, opening,
    show before ++ first :: (tail ++ after) = before ++ init ++ last :: after by
      simpa using congrArg (before ++ · ++ after) split, closing]
  have stop : byteSize (Written.chars (before ++ init)) + byteSize last.before + byteSize last.spelling =
      byteSize (Written.chars before) + byteSize (Written.chars (first :: tail)) := by
    rw [split]
    simp [back, Nat.add_assoc]
  simp only [Option.map_some, front, byteSize_nil, Nat.add_zero, stop]
  have whole : (ofWritten (before ++ init ++ last :: after)).chars =
      Written.chars before ++ Written.chars (first :: tail) ++ Written.chars after := by
    rw [split]
    simp [ofWritten]
  rw [whole, cut]

/-- A token ends before the next but one begins, when the one between them is not empty. -/
theorem span?_apart {v : Written} (writes : s.Writes i (w :: ws ++ [v]))
    (solid : 0 < byteSize (Written.chars ws)) :
    ∃ a b, s.span? i = some a ∧ s.span? (i + ws.length + 1) = some b ∧ a.stop < b.start := by
  obtain ⟨before, after, rfl, rfl⟩ := writes
  have first := getElem?_ofWritten before w (ws ++ v :: after)
  have last := getElem?_ofWritten (before ++ w :: ws) v after
  rw [show before ++ (w :: ws ++ [v]) ++ after = before ++ w :: (ws ++ v :: after) by simp]
  rw [show before ++ w :: ws ++ v :: after = before ++ w :: (ws ++ v :: after) by simp,
    show (before ++ w :: ws).length = before.length + ws.length + 1 by simp; omega] at last
  refine ⟨_, _, by rw [span?, first]; rfl, by rw [span?, last]; rfl, ?_⟩
  simp only [Written.chars_append, Written.chars_cons, byteSize_append]
  omega

end Dbml.Source
