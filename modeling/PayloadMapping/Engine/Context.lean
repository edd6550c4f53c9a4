import PayloadMapping.Json.Printer
import PayloadMapping.Value.Basic

set_option autoImplicit false

/-!
# The context of evaluations

A context collects what evaluations remember and report: cached values, of which the first for a
key is kept, the ids seen so far, each once and in the order in which they were seen, and
diagnostics.
-/

namespace PayloadMapping

inductive Severity where
  | debug | warning
deriving DecidableEq

def Severity.name : Severity → String
  | .debug => "debug"
  | .warning => "warning"

inductive DiagnosticKind where
  | missingField | structuralMismatch | actionFailed | writeFailed
deriving DecidableEq

def DiagnosticKind.name : DiagnosticKind → String
  | .missingField => "missing_field"
  | .structuralMismatch => "structural_mismatch"
  | .actionFailed => "action_failed"
  | .writeFailed => "write_failed"

/-- A note about a place of the document that could not be filled as the mapping asks. -/
structure Diagnostic where
  severity : Severity
  kind : DiagnosticKind
  target : String
  message : String
deriving DecidableEq

/-- What evaluations remember and report. Ids are told apart by their compact texts. -/
structure Context where
  cache : Fields Value := []
  uniqueIds : List Value := []
  seenTexts : List String := []
  diagnostics : List Diagnostic := []
deriving DecidableEq

namespace Context

def empty : Context := {}

/-- An id counts: it is not null, and no id with its text was seen. -/
def isNewId (context : Context) (id : Value) : Bool :=
  id ≠ .null && !context.seenTexts.contains id.compact

def recordId (context : Context) (id : Value) : Context :=
  if context.isNewId id then
    { context with
      uniqueIds := context.uniqueIds ++ [id]
      seenTexts := id.compact :: context.seenTexts }
  else context

/-- Keep a value under a key, if the key is free. -/
def remember (context : Context) (key : String) (value : Value) : Context :=
  if Fields.contains key context.cache then context
  else { context with cache := Fields.insert key value context.cache }

def addDiagnostic (context : Context) (diagnostic : Diagnostic) : Context :=
  { context with diagnostics := context.diagnostics ++ [diagnostic] }

def clearCache (context : Context) : Context := { context with cache := [] }

end Context

end PayloadMapping
