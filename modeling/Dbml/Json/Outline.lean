import Dbml.Json.Symbol

/-!
# Outlines of JSON texts

The outline of a text is its value as far as the text is well formed; where it is not, the outline
is broken off. Whoever reads an outline from front to back meets the break where a reader of the
text would meet the fault. The text is read by an automaton with a stack of open containers.
-/

namespace Dbml.Json

/-- The value of a text up to its first fault. -/
inductive Outline
  | null
  | bool (b : Bool)
  | number (n : Number)
  /-- A string, which has no text when a surrogate in it stands alone. -/
  | string (text : Option String)
  | array (items : List Outline)
  /-- The members. A name has no text when a surrogate in it stands alone, and when the text breaks
  off where the name is due. -/
  | object (members : List (Option String × Outline))
  /-- The text is not well formed here. -/
  | broken
  deriving Repr, Inhabited

namespace Outline

/-! ## Open containers -/

/-- The containers that a value stands in; what stands before it is given last one first. -/
inductive Context
  | root
  | item (before : List Outline) (outer : Context)
  | member (before : List (Option String × Outline)) (name : Option String) (outer : Context)

/-- The whole outline when the value is the last thing in its containers. -/
def Context.close (value : Outline) : Context → Outline
  | .root => value
  | .item before outer => outer.close (.array (before.reverse ++ [value]))
  | .member before name outer => outer.close (.object (before.reverse ++ [(name, value)]))

inductive State
  | value (context : Context)
  /-- The first item of an array, or its end. -/
  | firstItem (outer : Context)
  /-- The name of a member. -/
  | name (before : List (Option String × Outline)) (outer : Context)
  /-- The first name of an object, or its end. -/
  | firstName (outer : Context)
  /-- The colon behind a name. -/
  | colon (before : List (Option String × Outline)) (name : Option String) (outer : Context)
  /-- What separates a complete value from the next, or ends its container. -/
  | complete (value : Outline) (context : Context)
  /-- Nothing more: a symbol follows the value of the whole text. -/
  | trailing (value : Outline)
  /-- Nothing more: the text is not well formed. -/
  | failed (outline : Outline)

/-! ## Steps -/

def ofScalar? : Symbol → Option Outline
  | .null => some .null
  | .bool b => some (.bool b)
  | .number n => some (.number n)
  | .string text => some (.string text)
  | _ => none

def stepValue (context : Context) (symbol : Symbol) : State :=
  match symbol with
  | .openArray => .firstItem context
  | .openObject => .firstName context
  | symbol => (ofScalar? symbol).elim (.failed (context.close .broken)) (.complete · context)

/-- Reads the name of a member, which is a string. -/
def stepName (before : List (Option String × Outline)) (outer : Context) (symbol : Symbol) :
    State :=
  match symbol with
  | .string text => .colon before text outer
  | _ => .failed ((Context.member before none outer).close .broken)

/-- Reads one more symbol. -/
def step (state : State) (symbol : Symbol) : State :=
  match state with
  | .value context => stepValue context symbol
  | .firstItem outer =>
    if symbol = .closeArray then .complete (.array []) outer
    else stepValue (.item [] outer) symbol
  | .name before outer => stepName before outer symbol
  | .firstName outer =>
    if symbol = .closeObject then .complete (.object []) outer else stepName [] outer symbol
  | .colon before name outer =>
    if symbol = .colon then .value (.member before name outer)
    else .failed ((Context.member before name outer).close .broken)
  | .complete value .root => .trailing value
  | .complete value (.item before outer) =>
    match symbol with
    | .comma => .value (.item (value :: before) outer)
    | .closeArray => .complete (.array (before.reverse ++ [value])) outer
    | _ => .failed ((Context.item (value :: before) outer).close .broken)
  | .complete value (.member before name outer) =>
    match symbol with
    | .comma => .name ((name, value) :: before) outer
    | .closeObject => .complete (.object (before.reverse ++ [(name, value)])) outer
    | _ => .failed ((Context.member ((name, value) :: before) none outer).close .broken)
  | .trailing value => .trailing value
  | .failed outline => .failed outline

/-- The outline at the end of the text, and whether nothing follows its value. -/
def finish (state : State) : Outline × Bool :=
  match state with
  | .complete value .root => (value, true)
  | state =>
    match step state .fault with
    | .trailing value => (value, false)
    | .failed outline => (outline, true)
    | _ => (.broken, true)

def ofSymbols (symbols : List Symbol) : Outline × Bool :=
  finish (symbols.foldl step (.value .root))

/-! ## Values that are not looked at -/

mutual

def isWhole : Outline → Bool
  | .broken => false
  | .array items => areWhole items
  | .object members => areWholeMembers members
  | _ => true

def areWhole : List Outline → Bool
  | [] => true
  | item :: items => item.isWhole && areWhole items

def areWholeMembers : List (Option String × Outline) → Bool
  | [] => true
  | (_, value) :: members => value.isWhole && areWholeMembers members

end

end Outline

end Dbml.Json
