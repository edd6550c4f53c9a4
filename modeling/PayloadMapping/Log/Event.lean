set_option autoImplicit false

/-!
# Events

What an evaluation reports while it goes on. Every event has a level, a message and named
fields, all as texts.
-/

namespace PayloadMapping

inductive Level where
  | trace | debug | info | warn | error
deriving DecidableEq

def Level.name : Level → String
  | .trace => "TRACE"
  | .debug => "DEBUG"
  | .info => "INFO"
  | .warn => "WARN"
  | .error => "ERROR"

/-- What can happen during an evaluation. Paths and errors are given by their texts. -/
inductive Event where
  | started (mapping : String) (rules : Nat)
  | pathRead (path : String)
  | loopEntered (source target : String) (elements : Nat)
  | loopSourceNull (source target : String)
  | loopSourceUnsuited (target cause : String)
  | optionalUnresolved (target error : String)
  | requiredUnresolved (target error : String)
  | attributeRead (scope name : String)
  | idRecorded (target id : String)
  | cached (key : String)
  | cacheKept (key : String)
  | actionFailed (target action error : String)
  | notMerged (cause : String)
  | writeFailed (target error : String)
  | sumListSkipped (path error : String)
  | memberSkipped (path error : String)
  | capitalisePassed (found : String)
  | recordSkipped (key : String)
deriving DecidableEq

namespace Event

def level : Event → Level
  | .pathRead _ | .loopEntered _ _ _ | .attributeRead _ _ => .trace
  | .started _ _ | .loopSourceNull _ _ | .optionalUnresolved _ _ | .idRecorded _ _ | .cached _
  | .cacheKept _ | .sumListSkipped _ _ | .memberSkipped _ _ => .debug
  | .loopSourceUnsuited _ _ | .requiredUnresolved _ _ | .actionFailed _ _ _ | .notMerged _
  | .writeFailed _ _ | .capitalisePassed _ | .recordSkipped _ => .warn

def message : Event → String
  | .started _ _ => "starting transform"
  | .pathRead _ => "resolved path"
  | .loopEntered _ _ _ => "for_each"
  | .loopSourceNull _ _ => "for_each source is null, writing null"
  | .loopSourceUnsuited _ cause => cause ++ ", writing null"
  | .optionalUnresolved _ _ => "optional field unresolved, writing null"
  | .requiredUnresolved _ _ => "required field unresolved, writing null"
  | .attributeRead _ _ => "resolved provider attribute"
  | .idRecorded _ _ => "recorded unique id"
  | .cached _ => "cached value"
  | .cacheKept _ => "cache key already populated, keeping first value"
  | .actionFailed _ _ _ => "action failed, writing null"
  | .notMerged cause => cause
  | .writeFailed _ _ => "write failed, value dropped"
  | .sumListSkipped _ _ => "skipping unresolved list in sum"
  | .memberSkipped _ _ => "value_in field not found"
  | .capitalisePassed _ => "capitalise expects a string, passing value through"
  | .recordSkipped _ => "record without key skipped in list_to_dict"

def fields : Event → List (String × String)
  | .started mapping rules => [("mapping", mapping), ("rules", toString rules)]
  | .pathRead path => [("path", path)]
  | .loopEntered source target elements =>
    [("from", source), ("to", target), ("elements", toString elements)]
  | .loopSourceNull source target => [("from", source), ("to", target)]
  | .loopSourceUnsuited target _ => [("to", target)]
  | .optionalUnresolved target error | .requiredUnresolved target error
  | .writeFailed target error => [("to", target), ("error", error)]
  | .attributeRead scope name => [("scope", scope), ("name", name)]
  | .idRecorded target id => [("to", target), ("id", id)]
  | .cached key | .cacheKept key | .recordSkipped key => [("key", key)]
  | .actionFailed target action error =>
    [("to", target), ("action", action), ("error", error)]
  | .notMerged _ => []
  | .sumListSkipped path error | .memberSkipped path error =>
    [("path", path), ("error", error)]
  | .capitalisePassed found => [("found", found)]

end Event

end PayloadMapping
