import PayloadMapping.Path.Access

set_option autoImplicit false

/-!
# Failures of actions

Why an action cannot be applied to a value, and the wording of it.
-/

namespace PayloadMapping

inductive ActionFault where
  | notImplemented
  | invalidInput (expected : String) (found : Kind)
  | indexOutOfRange (index : Int) (length : Nat)
  | unresolvedField (error : PathError)
  | missingKey
  | invalidNumber (text : String)
deriving DecidableEq

structure ActionError where
  action : String
  fault : ActionFault
deriving DecidableEq

def ActionError.message (e : ActionError) : String :=
  match e.fault with
  | .notImplemented => "action '" ++ e.action ++ "' is not implemented"
  | .invalidInput expected found =>
    e.action ++ ": expected " ++ expected ++ ", found " ++ found.name
  | .indexOutOfRange index length =>
    e.action ++ ": index " ++ toString index ++ " out of range for " ++ toString length
      ++ " elements"
  | .unresolvedField error => e.action ++ ": " ++ error.message
  | .missingKey => e.action ++ ": missing parameter 'key'"
  | .invalidNumber text => e.action ++ ": cannot read '" ++ text ++ "' as a number"

end PayloadMapping
