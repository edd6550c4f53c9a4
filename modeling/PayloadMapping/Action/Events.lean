import PayloadMapping.Action.Apply
import PayloadMapping.Log.Event

set_option autoImplicit false

/-!
# Events of actions

What is reported while an action is applied: the paths it reads, the entries it passes over, and
inputs that it leaves as they are. The list ends where the action fails.
-/

namespace PayloadMapping.Action

/-- The paths read up to the first that leads nowhere. -/
def lookUpEvents (scope : Value) : List Path → List Event
  | [] => []
  | path :: rest =>
    match path.read scope with
    | .error _ => []
    | .ok _ => .pathRead path.text :: lookUpEvents scope rest

def addPartEvents (part : String) (meaning : PartMeaning) (v scope : Value) : List Event :=
  match scalarText? v, meaning with
  | some _, .variable => lookUpEvents scope (pathList part)
  | _, _ => []

def sumEvents (key : String) (scope : Value) (total : Total) : List Path → List Event
  | [] => []
  | path :: rest =>
    match path.read scope with
    | .error e => .sumListSkipped path.text e.message :: sumEvents key scope total rest
    | .ok .null => .pathRead path.text :: sumEvents key scope total rest
    | .ok (.array records) =>
      match addAmounts total (amounts key records) with
      | .ok total => .pathRead path.text :: sumEvents key scope total rest
      | .error _ => [.pathRead path.text]
    | .ok _ => [.pathRead path.text]

def memberEvent (scope : Value) (path : Path) : Event :=
  match path.read scope with
  | .ok _ => .pathRead path.text
  | .error e => .memberSkipped path.text e.message

def capitaliseEvents : Value → List Event
  | .string _ => []
  | v => [.capitalisePassed v.kind.name]

def keyRecordsEvents (key : String) : Value → List Event
  | .array records =>
    records.flatMap fun record =>
      match record.field? key with
      | none | some .null => [.recordSkipped key]
      | some _ => []
  | _ => []

mutual

def events : Action → Value → Value → List Event
  | .affix _ part meaning _, v, scope => addPartEvents part meaning v scope
  | .sum lists key, _, scope => sumEvents key scope .zero (pathList lists)
  | .capitalise, v, _ => capitaliseEvents v
  | .valueIn _ lists, _, scope => ((lists.map pathList).getD []).map (memberEvent scope)
  | .listToDict key, v, _ => keyRecordsEvents key v
  | .chain actions, v, scope => eventsAll actions v scope
  | .extractIndex _ _, _, _ | .flat _ _ _, _, _ | .cast _, _, _ | .text _, _, _
  | .default _, _, _ | .reserved _, _, _ => []

def eventsAll : List Action → Value → Value → List Event
  | [], _, _ => []
  | action :: rest, v, scope =>
    events action v scope ++
      match apply action v scope with
      | .ok w => eventsAll rest w scope
      | .error _ => []

end

end PayloadMapping.Action
