import PayloadMapping.Engine.Basic
import PayloadMapping.Path.Basic

set_option autoImplicit false

/-!
# Routes of lookups

The first segment of a path decides where a field rule looks: in the payload, in the cache, or
at a provider. A segment that starts with the marker twice names a key of the payload with one
marker less.
-/

namespace PayloadMapping

inductive Route where
  | whole
  | payload (segments : List String)
  | cache (key : Option String) (rest : List String)
  | provider (scope name : String) (rest : List String)
deriving DecidableEq

namespace Engine

/-- The scope that a name asks for: itself if it has a provider. -/
def scopeFor (engine : Engine) (name : String) : String :=
  if engine.providers.hasScope name then name else instanceScope

def attributeRoute (scope : String) (rest : List String) : Route :=
  .provider scope (rest.head?.getD "") rest.tail

/-- The route of segments whose first starts with the marker, without it `name`. -/
def markedRoute (engine : Engine) (head : String) (name : List Char) (rest : List String) :
    Route :=
  if head = engine.config.cachePrefix then .cache rest.head? rest.tail
  else if head = engine.config.configPrefix then attributeRoute configScope rest
  else attributeRoute (engine.scopeFor (String.ofList name)) rest

def plainRoute (engine : Engine) (head : String) (rest : List String) : Route :=
  if head = engine.config.cachePrefix then .cache rest.head? rest.tail
  else if head = engine.config.configPrefix then attributeRoute configScope rest
  else .payload (head :: rest)

def route (engine : Engine) (path : Path) : Route :=
  match path.segments with
  | [] => .whole
  | head :: rest =>
    match head.toList with
    | c :: d :: more =>
      if c = engine.config.marker ∧ d = engine.config.marker then
        .payload (String.ofList (d :: more) :: rest)
      else if c = engine.config.marker then engine.markedRoute head (d :: more) rest
      else engine.plainRoute head rest
    | [c] =>
      if c = engine.config.marker then engine.markedRoute head [] rest
      else engine.plainRoute head rest
    | [] => engine.plainRoute head rest

end Engine

end PayloadMapping
