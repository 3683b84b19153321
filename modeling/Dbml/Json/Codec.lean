import Dbml.Json
import Dbml.Json.Outline

/-!
# Codecs

A codec writes the values of a type as JSON and reads them back. Records are described once, member
by member; the description serves both ways. A record may be read from an object, with its members
in any order and unknown ones among them, or from an array of its values in order.
-/

namespace Dbml.Json

inductive Fault
  /-- What was read is no value of the type. -/
  | wrongShape
  | malformed
  deriving DecidableEq, Repr

/-- The fault of an outline that is not of the expected kind: if it is a scalar, it is read before
it is refused. -/
def Outline.mismatch : Outline → Fault
  | .broken | .string none | .number .excessive => .malformed
  | _ => .wrongShape

/-- How values of a type are written and read. -/
structure Codec (α : Type) where
  encode : α → Json
  decode : Outline → Except Fault α

namespace Codec

variable {α β σ : Type}

/-! ## Scalars -/

def string : Codec String where
  encode := .str
  decode
    | .string (some text) => .ok text
    | outline => .error outline.mismatch

def bool : Codec Bool where
  encode := .bool
  decode
    | .bool b => .ok b
    | outline => .error outline.mismatch

def count : Codec Nat where
  encode := .num
  decode
    | .number (.count n) => .ok n
    | outline => .error outline.mismatch

/-! ## Containers -/

def decodeItems (codec : Codec α) : List Outline → Except Fault (List α)
  | [] => .ok []
  | item :: items => do
    let value ← codec.decode item
    let values ← codec.decodeItems items
    return value :: values

def list (codec : Codec α) : Codec (List α) where
  encode values := .arr (values.map codec.encode)
  decode
    | .array items => codec.decodeItems items
    | outline => .error outline.mismatch

/-- Values that may be absent, and then are null. -/
def option (codec : Codec α) : Codec (Option α) where
  encode value := value.elim .null codec.encode
  decode
    | .null => .ok none
    | outline => some <$> codec.decode outline

/-- One of a few values, each with a name. The value may also be given as the only member of an
object, with null for its value. Anything that begins otherwise, and an object whose first name is
no string, is malformed. -/
def named (nameOf : α → String) (ofName? : String → Option α) : Codec α where
  encode value := .str (nameOf value)
  decode
    | .string (some name) => (ofName? name).elim (.error .wrongShape) .ok
    | .object ((some name, value) :: others) =>
      match ofName? name, value, others with
      | none, _, _ => .error .wrongShape
      | some found, .null, [] => .ok found
      | some _, .null, _ :: _ => .error .malformed
      | some _, value, _ => .error value.mismatch
    | _ => .error .malformed

/-! ## Records -/

structure Member (α : Type) where
  key : String
  codec : Codec α
  /-- The value of a member that is missing, if it may be. -/
  missing : Option α := none
  /-- Whether a member with the value is left out. -/
  isOmitted : α → Bool := fun _ => false

def required (key : String) (codec : Codec α) : Member α :=
  { key, codec }

/-- A member that is left out when it is absent. -/
def optional (key : String) (codec : Codec α) : Member (Option α) :=
  { key, codec := codec.option, missing := some none, isOmitted := Option.isNone }

inductive Members : Type → Type 1
  | none : Members Unit
  | more {α β : Type} (member : Member α) (members : Members β) : Members (α × β)

namespace Members

def encode : {σ : Type} → Members σ → σ → List (String × Json)
  | _, .none, _ => []
  | _, .more member members, (value, values) =>
    (if member.isOmitted value then [] else [(member.key, member.codec.encode value)])
      ++ members.encode values

/-- The values read from the items of an array; those at its end may be missing. -/
def decodeItems : {σ : Type} → Members σ → List Outline → Except Fault σ
  | _, .none, [] => .ok ()
  | _, .none, _ :: _ => .error .malformed
  | _, .more member members, [] => do
    let value ← member.missing.elim (.error .wrongShape) .ok
    let values ← members.decodeItems []
    return (value, values)
  | _, .more member members, item :: items => do
    let value ← member.codec.decode item
    let values ← members.decodeItems items
    return (value, values)

def Slots : {σ : Type} → Members σ → Type
  | _, .none => Unit
  | _, .more (α := α) _ members => Option α × members.Slots

def noSlots : {σ : Type} → (members : Members σ) → members.Slots
  | _, .none => ()
  | _, .more _ members => (Option.none, members.noSlots)

/-- Reads the value of the member with the key; none when there is no such member. A member may
not be given twice. -/
def fill (key : String) (outline : Outline) :
    {σ : Type} → (members : Members σ) → members.Slots → Except Fault (Option members.Slots)
  | _, .none, _ => .ok Option.none
  | _, .more (α := α) member members, slots =>
    let (slot, slots) : Option α × members.Slots := slots
    if member.key = key then
      match slot with
      | some _ => .error .wrongShape
      | Option.none => do
        let value ← member.codec.decode outline
        return some (some value, slots)
    else do
      let filled ← members.fill key outline slots
      return filled.map fun slots => (slot, slots)

/-- The values of all members, if those not read may be missing. -/
def close : {σ : Type} → (members : Members σ) → members.Slots → Except Fault σ
  | _, .none, _ => .ok ()
  | _, .more (α := α) member members, slots => do
    let (slot, slots) : Option α × members.Slots := slots
    let value ← (slot.or member.missing).elim (.error .wrongShape) .ok
    let values ← members.close slots
    return (value, values)

/-- Reads the members of an object from the first on. -/
def decodeMembers {σ : Type} (members : Members σ) (slots : members.Slots) :
    List (Option String × Outline) → Except Fault σ
  | [] => members.close slots
  | (some key, outline) :: rest => do
    match ← members.fill key outline slots with
    | some slots => members.decodeMembers slots rest
    | Option.none =>
      if outline.isWhole then members.decodeMembers slots rest else .error .malformed
  | _ :: _ => .error .malformed

end Members

/-- A record that consists of the values of its members. -/
def record (members : Members σ) (values : α → σ) (ofValues : σ → α) : Codec α where
  encode a := .obj (members.encode (values a))
  decode
    | .array items => ofValues <$> members.decodeItems items
    | .object pairs => ofValues <$> members.decodeMembers members.noSlots pairs
    | outline => .error outline.mismatch

/-! ## Texts -/

def read (codec : Codec α) (text : String) : Except Fault α := do
  let (outline, ended) := Outline.ofSymbols (Symbol.symbols text.toList)
  let value ← codec.decode outline
  if ended then return value else throw .malformed

end Codec

end Dbml.Json
