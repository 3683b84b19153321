import Dbml.Text.Units

/-!
# Colours

A table or group without a colour of its own gets one from a palette, chosen by a hash of its name.
-/

namespace Dbml.Color

def palette : List String :=
  ["#FF6B6B", "#4ECDC4", "#45B7D1", "#96CEB4", "#FFEAA7", "#DDA0DD", "#F4A460", "#87CEEB",
   "#DEB887", "#F0E68C"]

/-- One step of the hash. The shifted operand is cut to 32 bits, the difference is not. -/
def hashStep (hash : Int64) (unit : Nat) : Int64 :=
  Int64.ofNat unit + ((hash.toInt32 <<< 5).toInt64 - hash)

/-- The hash of a name, taken over its UTF-16 code units. -/
def hash (name : String) : Int64 :=
  (Text.units name).foldl hashStep 0

def ofName (name : String) : String :=
  palette.getD ((hash name).toInt.natAbs % palette.length) ""

/-- The first of the given colours, else the inherited one, else the one chosen for the name. -/
def resolve (given : List (Option String)) (inherited : Option String) (name : String) : String :=
  ((given.findSome? id).or inherited).getD (ofName name)

end Dbml.Color
