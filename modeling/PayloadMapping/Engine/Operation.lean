import PayloadMapping.Engine.Evaluate

set_option autoImplicit false

/-!
# Operations on contexts

A context may serve several evaluations, of any mappings by any engines. Around them a caller may
keep and look up cached values, record ids, add diagnostics, and forget the cached values or
everything.
-/

namespace PayloadMapping

def Context.reset (context : Context) : Context :=
  { context.clearCache with uniqueIds := [], seenTexts := [], diagnostics := [] }

inductive Operation where
  | evaluate (engine : Engine) (mapping : Mapping) (source : Value)
  | remember (key : String) (value : Value)
  | lookUp (key : String)
  | clearCache
  | recordId (id : Value)
  | addDiagnostic (diagnostic : Diagnostic)
  | reset

/-- The context after an operation. An evaluation leaves what it changed also when it fails. -/
def Context.perform (context : Context) : Operation → Context
  | .evaluate engine mapping source => (engine.run mapping source { context := context }).2.context
  | .remember key value => context.remember key value
  | .lookUp _ => context
  | .clearCache => context.clearCache
  | .recordId id => context.recordId id
  | .addDiagnostic diagnostic => context.addDiagnostic diagnostic
  | .reset => context.reset

def Context.performAll (context : Context) (operations : List Operation) : Context :=
  operations.foldl Context.perform context

def Operation.forgets : Operation → Bool
  | .clearCache | .reset => true
  | _ => false

end PayloadMapping
