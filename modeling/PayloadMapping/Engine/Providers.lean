import PayloadMapping.Text.Visible
import PayloadMapping.Value.Basic

set_option autoImplicit false

/-!
# Providers of attributes

A provider gives the values of attributes by their names and is registered under the name of its
scope. The fields of an object make one, as does any other function of names.
-/

namespace PayloadMapping

def configScope : String := "config"

/-- The scope that stands in for scopes without a provider. -/
def instanceScope : String := "self"

/-- The value of an attribute by its name. A provider answers a name alike each time that it is
asked: it holds no state that a lookup could change. -/
abbrev Provider := String → Option Value

def Provider.ofFields (attributes : Fields Value) : Provider :=
  fun name => Fields.get? name attributes

/-- The providers by their scopes. -/
abbrev Providers := Fields Provider

inductive AttributeError where
  | missingProvider (scope : String)
  | missingAttribute (scope name : String)
deriving DecidableEq

def AttributeError.message : AttributeError → String
  | .missingProvider scope => "No value provider registered for scope '" ++ scope ++ "'"
  | .missingAttribute scope name =>
    "Value provider '" ++ scope ++ "' has no attribute '" ++ name ++ "'"

namespace Providers

def register (providers : Providers) (scope : String) (provider : Provider) : Providers :=
  Fields.insert scope provider providers

def hasScope (providers : Providers) (scope : String) : Bool := Fields.contains scope providers

def scopes (providers : Providers) : List String := Fields.keys providers

def find (providers : Providers) (scope name : String) : Except AttributeError Value :=
  match Fields.get? scope providers with
  | none => .error (.missingProvider scope)
  | some provider =>
    match provider name with
    | none => .error (.missingAttribute scope name)
    | some v => .ok v

def describe (providers : Providers) : String :=
  "Providers \x7b scopes: [" ++ ", ".intercalate (providers.scopes.map Text.quoted) ++ "] \x7d"

end Providers

end PayloadMapping
