/-!
# Ranges of tokens

A part of a document is named by the numbers of its first token and of the token behind its last.
-/

namespace Dbml

/-- The tokens from number `start` up to but not including number `stop`. -/
structure TokenRange where
  start : Nat
  stop : Nat
  deriving DecidableEq, Repr, Inhabited

namespace TokenRange

def size (range : TokenRange) : Nat :=
  range.stop - range.start

def isEmpty (range : TokenRange) : Bool :=
  range.stop ≤ range.start

/-- The range without its first `n` tokens. -/
def drop (range : TokenRange) (n : Nat) : TokenRange :=
  ⟨range.start + n, range.stop⟩

end TokenRange

end Dbml
