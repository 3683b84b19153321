import Dbml.Model.Codec

/-!
# The command line

A run reads one file and writes the JSON text of what it declares, to the standard output or to a
file. Diagnostics are warnings on the standard error. What a run does is decided here, from what is
found in the file; doing it is left to the program.
-/

namespace Dbml.CommandLine

structure Invocation where
  input : String
  /-- The file to write, if it is not the standard output. -/
  output : Option String := none
  pretty : Bool := false
  strict : Bool := false
  /-- Whether the text contains the diagnostics. -/
  diagnostics : Bool := false
  deriving DecidableEq, Repr

/-! ## Arguments -/

/-- What has been read of the arguments. -/
structure Arguments where
  inputs : List String := []
  output : Option String := none
  pretty : Bool := false
  strict : Bool := false
  diagnostics : Bool := false

/-- Reads the arguments behind those already read; none when they are not understood. No option
may be given twice. -/
def Arguments.read (done : Arguments) : List String → Option Arguments
  | [] => some done
  | "--pretty" :: rest =>
    if done.pretty then none else Arguments.read { done with pretty := true } rest
  | "--strict" :: rest =>
    if done.strict then none else Arguments.read { done with strict := true } rest
  | "--diagnostics" :: rest =>
    if done.diagnostics then none else Arguments.read { done with diagnostics := true } rest
  | "-o" :: path :: rest | "--output" :: path :: rest =>
    if done.output.isSome then none else Arguments.read { done with output := some path } rest
  | argument :: rest =>
    if argument.toList.head? = some '-' then none
    else Arguments.read { done with inputs := argument :: done.inputs } rest

/-- The invocation that the arguments make: they name one file to read. -/
def Invocation.ofArguments? (arguments : List String) : Option Invocation :=
  match Arguments.read {} arguments with
  | some { inputs := [input], output, pretty, strict, diagnostics } =>
    some { input, output, pretty, strict, diagnostics }
  | _ => none

def usage : String :=
  "Usage: dbml [-o FILE] [--pretty] [--strict] [--diagnostics] INPUT"

/-! ## Files -/

def missingFile : String :=
  "No such file or directory (os error 2)"

def invalidText : String :=
  "stream did not contain valid UTF-8"

def textOf (bytes : ByteArray) : Except String String :=
  match String.fromUTF8? bytes with
  | some text => .ok text
  | none => .error invalidText

/-! ## Runs -/

/-- The last thing that a run does. -/
inductive Action
  | fail
  | print (text : String)
  | write (path : String) (text : String)
  deriving DecidableEq, Repr

/-- What a run will do: its messages and its last action. -/
structure Plan where
  messages : String
  action : Action
  deriving DecidableEq, Repr

def jsonText (invocation : Invocation) (report : Report) : String :=
  (if invocation.diagnostics then report.toJson else report.database.toJson).text
    (if invocation.pretty then .pretty else .compact)

def warning (d : Diagnostic) : String :=
  s!"warning: {d.text}\n"

/-- What a run does with the text of its input, or with the reason why there is none. -/
def plan (invocation : Invocation) (input : Except String String) : Plan :=
  match input with
  | .error reason => ⟨s!"Failed to read {invocation.input}: {reason}\n", .fail⟩
  | .ok text =>
    match parseReport text invocation.strict with
    | .error error => ⟨s!"Parse error: {error.message}\n", .fail⟩
    | .ok report =>
      let json := jsonText invocation report
      { messages := String.join (report.diagnostics.map warning)
        action :=
          match invocation.output with
          | some path => .write path json
          | none => .print (json ++ "\n") }

/-- What a run leaves behind. -/
structure Outcome where
  exitCode : UInt32
  output : String
  messages : String
  /-- The text of the file that was written. -/
  file : Option String
  deriving DecidableEq, Repr

/-- What a plan leaves behind; `fault` is the reason why its file cannot be written. -/
def Plan.outcome (plan : Plan) (fault : Option String) : Outcome :=
  match plan.action, fault with
  | .fail, _ => ⟨1, "", plan.messages, none⟩
  | .print text, _ => ⟨0, text, plan.messages, none⟩
  | .write _ text, none => ⟨0, "", plan.messages, some text⟩
  | .write path _, some reason =>
    ⟨1, "", plan.messages ++ s!"Failed to write {path}: {reason}\n", none⟩

end Dbml.CommandLine
