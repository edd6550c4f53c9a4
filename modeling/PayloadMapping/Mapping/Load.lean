import PayloadMapping.Mapping.Json
import PayloadMapping.Mapping.Yaml

set_option autoImplicit false

/-!
# Loading mappings

A mapping is loaded from JSON or YAML text. What goes wrong has a place in the text wherever one
is known; the message names it as the reader of the format does, and the report once more after
the message.
-/

namespace PayloadMapping

inductive Format where
  | json | yaml
deriving DecidableEq

inductive ParseFailure where
  | json (error : Json.LoadError)
  | yaml (fault : Yaml.LoadFault)
deriving DecidableEq

namespace ParseFailure

def place? : ParseFailure → Option (Nat × Nat)
  | .json error => some (error.place.line, error.place.column)
  | .yaml fault => fault.place?

def reason : ParseFailure → String
  | .json error => error.message
  | .yaml fault => fault.message

def message (failure : ParseFailure) : String := "Failed to parse mapping: " ++ failure.reason

def report (failure : ParseFailure) : String :=
  match failure.place? with
  | some (line, column) =>
    failure.message ++ " at line " ++ toString line ++ ", column " ++ toString column
  | none => failure.message

/-- The wording of a failure among the errors of an engine. -/
def display (failure : ParseFailure) : String := "Mapping parse error: " ++ failure.report

end ParseFailure

def Mapping.parse (format : Format) (text : String) : Except ParseFailure Mapping :=
  match format with
  | .json => (Mapping.parseJson text).mapError .json
  | .yaml => (Mapping.parseYaml text).mapError .yaml

end PayloadMapping
