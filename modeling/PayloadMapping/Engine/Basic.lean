import PayloadMapping.Action.Error
import PayloadMapping.Engine.Providers

set_option autoImplicit false

/-!
# Engines

An engine holds what does not change between evaluations: the providers, the names of the
reserved lookups, and what happens when an action fails.
-/

namespace PayloadMapping

structure Config where
  configPrefix : String := "$config"
  cachePrefix : String := "$cache"
  marker : Char := '$'
  failOnActionError : Bool := false
deriving DecidableEq

/-- What does not change between evaluations. -/
structure Engine where
  providers : Providers := []
  config : Config := {}

inductive EngineError where
  | provider (error : AttributeError)
  | action (target : String) (error : ActionError)
deriving DecidableEq

def EngineError.message : EngineError → String
  | .provider error => error.message
  | .action target error => "Action failed for '" ++ target ++ "': " ++ error.message

end PayloadMapping
