import PayloadMapping.Command.Arguments
import PayloadMapping.Command.Files
import PayloadMapping.Command.Notice
import PayloadMapping.Engine.Evaluate
import PayloadMapping.Mapping.Load

set_option autoImplicit false

/-!
# The commands

`transform` evaluates a mapping for each of its inputs and writes the documents, or nothing if
anything fails. `check` describes a mapping. A failure is reported as a summary with the causes
behind it.
-/

namespace PayloadMapping.Command

/-- A failure: what was tried, and the causes, from the outermost on. -/
structure Failure where
  summary : String
  causes : List String
deriving DecidableEq

structure Outcome where
  exit : Nat := 0
  printed : String := ""
  written : Option (String × String) := none
  failure : Option Failure := none
  notices : List Notice := []
deriving DecidableEq

namespace Failure

def hang (indentation text : String) : String :=
  String.ofList (text.toList.flatMap fun c => if c = '\n' then '\n' :: indentation.toList else [c])

def numbered (number : Nat) : List String → List String
  | [] => []
  | cause :: rest =>
    let label := toString number
    let padding := String.ofList (List.replicate (5 - label.length) ' ')
    (padding ++ label ++ ": " ++ hang "       " cause) :: numbered (number + 1) rest

def report (failure : Failure) : String :=
  let head := "Error: " ++ failure.summary
  match failure.causes with
  | [] => head
  | [cause] => head ++ "\n\nCaused by:\n    " ++ hang "    " cause
  | causes => head ++ "\n\nCaused by:\n" ++ "\n".intercalate (numbered 0 causes)

end Failure

def failWith {α : Type} (summary cause : String) : Except Failure α := .error ⟨summary, [cause]⟩

def format (path : String) : Format := if extension? path == some "json" then .json else .yaml

def loadMapping (files : Files) (path : String) : Except Failure Mapping :=
  let summary := "failed to load mapping " ++ path
  match files.read path with
  | .error e => failWith summary ("Failed to read " ++ path ++ ": " ++ e.message)
  | .ok text =>
    match Mapping.parse (format path) text with
    | .ok mapping => .ok mapping
    | .error e => failWith summary e.report

def readFile (files : Files) (path : String) : Except Failure String :=
  match files.read path with
  | .ok text => .ok text
  | .error e => failWith ("failed to read " ++ path) e.message

def loadAttributes (files : Files) (path : String) : Except Failure (Fields Value) := do
  let text ← readFile files path
  let summary := path ++ " is not an attribute mapping"
  match format path with
  | .json =>
    match Json.parseObject text with
    | .ok fields => .ok fields
    | .error e => failWith summary e.message
  | .yaml =>
    match Yaml.parseObject text with
    | .ok fields => .ok fields
    | .error e => failWith summary e.message

def registerFrom (files : Files) (path : Option String) (scope : String)
    (providers : Providers) : Except Failure Providers :=
  match path with
  | none => .ok providers
  | some path => do
    let attributes ← loadAttributes files path
    .ok (providers.register scope (.ofFields attributes))

def loadPayload (files : Files) (path : String) : Except Failure Value := do
  let text ← readFile files path
  match Json.parse text with
  | .ok v => .ok v
  | .error e => failWith (path ++ " is not valid JSON") e.message

def causes (e : EngineError) : List String :=
  match e with
  | .provider _ => [e.message]
  | .action _ error =>
    [e.message, error.message] ++
      match error.fault with
      | .unresolvedField pathError => [pathError.message]
      | _ => []

def diagnosticValue (d : Diagnostic) : Value :=
  .object
    [("kind", .string d.kind.name), ("message", .string d.message),
      ("severity", .string d.severity.name), ("target", .string d.target)]

def reportValue (document : Value) (context : Context) : Value :=
  .object
    [("diagnostics", .array (context.diagnostics.map diagnosticValue)),
      ("document", document), ("unique_ids", .array context.uniqueIds)]

def warningCount (context : Context) : Nat :=
  context.diagnostics.countP fun d => d.severity == .warning

/-- Evaluate a mapping for payloads in order, each with a context of its own. The notices are
given also when an evaluation fails. -/
def transformAll (engine : Engine) (mapping : Mapping) (report : Bool) :
    List (String × Value) → Except Failure (List Value) × List Notice
  | [] => (.ok [], [])
  | (input, payload) :: rest =>
    match engine.run mapping payload {} with
    | (.error e, _) => (.error ⟨"failed to transform " ++ input, causes e⟩, [])
    | (.ok document, session) =>
      let warnings := warningCount session.context
      let notices :=
        (if 0 < warnings then [Notice.downgraded input warnings] else [])
          ++ [.transformed input]
      let result := if report then reportValue document session.context else document
      match transformAll engine mapping report rest with
      | (.ok results, more) => (.ok (result :: results), notices ++ more)
      | (.error e, more) => (.error e, notices ++ more)

def combine : List Value → Value
  | [document] => document
  | documents => .array documents

def failed (failure : Failure) (notices : List Notice) : Outcome :=
  { exit := 1, failure := some failure, notices := notices }

def writeFailed (path : String) (e : FileError) (notices : List Notice) : Outcome :=
  failed ⟨"failed to write " ++ path, [e.message]⟩ notices

def deliver (files : Files) (output : Option String) (text : String) (notices : List Notice) :
    Outcome :=
  match output with
  | none => { printed := text, notices := notices }
  | some path =>
    match files.target path with
    | .ok name => { written := some (name, text), notices := notices }
    | .error e => writeFailed path e notices

/-- The outcome after an attempt to write its file, which is given the file's name and the text. A
failed attempt makes the outcome a failure. -/
def Outcome.afterWriting (outcome : Outcome) (attempt : String → String → Except FileError Unit) :
    Outcome :=
  match outcome.written with
  | none => outcome
  | some (path, text) =>
    match attempt path text with
    | .ok () => outcome
    | .error e => writeFailed path e outcome.notices

def loadEngine (files : Files) (request : TransformRequest) : Except Failure Engine := do
  let providers ← registerFrom files request.config configScope []
  let providers ← registerFrom files request.providerAttributes instanceScope providers
  .ok { providers := providers, config := { failOnActionError := request.strict } }

def loadPayloads (files : Files) (inputs : List String) :
    Except Failure (List (String × Value)) :=
  inputs.mapM fun input => (loadPayload files input).map fun v => (input, v)

def load (files : Files) (request : TransformRequest) :
    Except Failure (Engine × List (String × Value)) := do
  let engine ← loadEngine files request
  let payloads ← loadPayloads files request.inputs
  .ok (engine, payloads)

def transform (files : Files) (request : TransformRequest) : Outcome :=
  match loadMapping files request.mapping with
  | .error e => failed e []
  | .ok mapping =>
    let notice := Notice.usingMapping request.mapping mapping.ruleCount
    match load files request with
    | .error e => failed e [notice]
    | .ok (engine, payloads) =>
      match transformAll engine mapping request.report payloads with
      | (.error e, notices) => failed e (notice :: notices)
      | (.ok documents, notices) =>
        deliver files request.output ((combine documents).indented ++ "\n") (notice :: notices)

def sortedNames (names : List String) : List String :=
  Fields.keys (Fields.sorted (names.map fun name => (name, ())))

def unimplementedNames (mapping : Mapping) : List String :=
  sortedNames
    ((mapping.actions.filter fun action =>
      action.entry ≠ .chain && !action.isImplemented).map Action.name)

def describe (mapping : Mapping) : String :=
  "mapping: " ++ mapping.label ++ "\n"
    ++ "rules: " ++ toString mapping.ruleCount ++ "\n"
    ++ "depth: " ++ toString mapping.depth ++ "\n"
    ++ "actions: " ++ ", ".intercalate (sortedNames (mapping.actions.map Action.name)) ++ "\n"

def check (files : Files) (path : String) : Outcome :=
  match loadMapping files path with
  | .error e => failed e []
  | .ok mapping =>
    match unimplementedNames mapping with
    | [] => { printed := describe mapping }
    | names =>
      { exit := 1
        printed := describe mapping
        failure :=
          some ⟨"mapping uses unimplemented actions: " ++ ", ".intercalate names, []⟩ }

end PayloadMapping.Command
