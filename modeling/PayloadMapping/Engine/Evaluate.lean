import PayloadMapping.Action.Events
import PayloadMapping.Engine.Context
import PayloadMapping.Engine.Route
import PayloadMapping.Mapping.Basic

set_option autoImplicit false

/-!
# Evaluating mappings

An evaluation goes through the rules in order and fills an object. A value that cannot be looked
up, made or written is replaced by null and noted in the context; only a missing provider or
attribute, and a failing action if the engine says so, end the evaluation. The context and the
events up to there stay.
-/

namespace PayloadMapping

def Value.merge (result produced : Value) : Value :=
  match result, produced with
  | .object fields, .object updates => .object (Fields.merge fields updates)
  | _, _ => result

structure Session where
  context : Context := .empty
  events : List Event := []
deriving DecidableEq

/-- A step of an evaluation: it goes on from a session to another one, with a result or with
the reason why the evaluation ends. -/
abbrev Eval := ExceptT EngineError (StateM Session)

namespace Eval

def report (events : List Event) : Eval Unit :=
  modify fun session => { session with events := session.events ++ events }

def update (change : Context → Context) : Eval Unit :=
  modify fun session => { session with context := change session.context }

def context : Eval Context := do return (← get).context

/-- Report an event and add the diagnostic that belongs to it. -/
def note (event : Event) (diagnostic : Diagnostic) : Eval Unit := do
  report [event]
  update (·.addDiagnostic diagnostic)

def read (source : Value) (segments : List String) : Eval (Except PathError Value) :=
  match Path.readSegments source segments with
  | .ok v => do
    report [.pathRead (Path.join segments)]
    return .ok v
  | .error e => return .error e

def noteUnresolved (target : String) (error : PathError) (isOptional : Bool) : Eval Unit :=
  let kind := if error.isMissing then .missingField else .structuralMismatch
  if isOptional then
    note (.optionalUnresolved target error.message) ⟨.debug, kind, target, error.message⟩
  else note (.requiredUnresolved target error.message) ⟨.warning, kind, target, error.message⟩

/-- Write a value into the object that is being filled. At the empty path an object is merged
into it. -/
def place (result value : Value) (target : Path) : Eval Value :=
  if target.isEmpty then
    match value with
    | .object _ => return result.merge value
    | _ => do
      let cause := "cannot merge " ++ value.kind.name ++ " into the output"
      note (.notMerged cause) ⟨.warning, .writeFailed, "", cause⟩
      return result
  else
    match target.write result value with
    | .ok v => return v
    | .error e => do
      note (.writeFailed target.text e.message)
        ⟨.warning, .writeFailed, target.text, e.message⟩
      return result

def recordId (target : String) (value : Value) : Eval Unit := do
  if (← context).isNewId value then report [.idRecorded target value.compact]
  update (·.recordId value)

def remember (key : String) (value : Value) : Eval Unit := do
  if Fields.contains key (← context).cache then report [.cacheKept key]
  else report [.cached key]
  update (·.remember key value)

end Eval

namespace Engine

open Eval

def lookUp (engine : Engine) (path : Path) (base : Value) : Eval (Except PathError Value) :=
  match engine.route path with
  | .whole => return .ok base
  | .payload segments => read base segments
  | .cache none _ => return .error ⟨path.text, "", .missing⟩
  | .cache (some key) rest => do
    match Fields.get? key (← context).cache with
    | some v => read v rest
    | none => return .error ⟨path.text, key, .missing⟩
  | .provider scope name rest =>
    match engine.providers.find scope name with
    | .ok v => do
      report [.attributeRead scope name]
      read v rest
    | .error e => throw (.provider e)

/-- Apply an action for a target. A failure gives null or ends the evaluation. -/
def act (engine : Engine) (action : Action) (value scope : Value) (target : String) :
    Eval Value := do
  report (action.events value scope)
  match action.apply value scope with
  | .ok v => return v
  | .error e =>
    if engine.config.failOnActionError then throw (.action target e)
    else do
      note (.actionFailed target action.name e.message)
        ⟨.warning, .actionFailed, target, e.message⟩
      return .null

def actIfAny (engine : Engine) (action : Option Action) (value scope : Value)
    (target : String) : Eval Value :=
  match action with
  | some action => engine.act action value scope target
  | none => return value

def start (engine : Engine) (rule : FieldRule) (current parent : Value) :
    Eval (Except PathError Value) :=
  match rule.source with
  | some path => engine.lookUp path (if rule.fromParent then parent else current)
  | none => return .ok (rule.defaultValue.getD .null)

def keep (rule : FieldRule) (value : Value) : Eval Unit := do
  if rule.isUniqueId then recordId rule.target.text value
  if rule.addToCache then
    match rule.target.first? with
    | some key => remember key value
    | none => return ()

def fieldValue (engine : Engine) (rule : FieldRule) (current parent : Value) : Eval Value := do
  match ← engine.start rule current parent with
  | .ok v => do
    let v ← engine.actIfAny rule.action v current rule.target.text
    keep rule v
    return v
  | .error e => do
    noteUnresolved rule.target.text e rule.isOptional
    return .null

/-- The value of a loop, where `evaluate` evaluates its rules for an item. -/
def loopValue (engine : Engine) (evaluate : Value → Eval Value) (source target : Path)
    (action : Option Action) (current : Value) : Eval Value := do
  match ← read current source.segments with
  | .ok (.array items) => do
    report [.loopEntered source.text target.text items.length]
    let documents ← items.mapM evaluate
    engine.actIfAny action (.array documents) current target.text
  | .ok .null => do
    note (.loopSourceNull source.text target.text)
      ⟨.debug, .structuralMismatch, target.text,
        "for_each source '" ++ source.text ++ "' is null"⟩
    return .null
  | .ok v => do
    let cause :=
      "for_each source '" ++ source.text ++ "' is " ++ v.kind.name ++ ", expected array"
    note (.loopSourceUnsuited target.text cause)
      ⟨.warning, .structuralMismatch, target.text, cause⟩
    return .null
  | .error e => do
    noteUnresolved target.text e false
    return .null

mutual

def evaluateRule (engine : Engine) : Rule → Value → Value → Value → Eval Value
  | .field rule, current, parent, result => do
    let v ← engine.fieldValue rule current parent
    place result v rule.target
  | .group rules, current, parent, result => do
    let produced ← evaluateRules engine rules current parent .empty
    return result.merge produced
  | .loop source target rules action, current, _, result => do
    let v ← engine.loopValue (fun item => evaluateRules engine rules item current .empty)
      source target action current
    let produced ← place .empty v target
    return result.merge produced

def evaluateRules (engine : Engine) : List Rule → Value → Value → Value → Eval Value
  | [], _, _, result => return result
  | rule :: rest, current, parent, result => do
    let result ← evaluateRule engine rule current parent result
    evaluateRules engine rest current parent result

end

def document (engine : Engine) (mapping : Mapping) (source : Value) : Eval Value := do
  report [.started mapping.label mapping.rules.length]
  engine.evaluateRules mapping.rules source source .empty

def run (engine : Engine) (mapping : Mapping) (source : Value) (session : Session) :
    Except EngineError Value × Session :=
  (engine.document mapping source).run session

end Engine

end PayloadMapping
