import Mathlib.Data.List.Infix
import PayloadMapping.Engine.Evaluate
import PayloadMapping.Proofs.Path.Text

set_option autoImplicit false

/-!
# Where lookups lead

The first segment of a path decides between the payload, the cache and the providers, in one
order of questions: `route_cons`. An escaped path passes all of them and leads to the payload, so
every path can be read there: `lookUp_escape`.
-/

namespace PayloadMapping

namespace Path

theorem join_push (c : Char) (head : String) (rest : List String) :
    join (String.ofList (c :: head.toList) :: rest) =
      String.ofList (c :: (join (head :: rest)).toList) := by
  apply String.toList_injective
  cases rest with
  | nil => simp [join, Text.join]
  | cons s more => simp [join, Text.join]

theorem WellFormed.push {head : String} {rest : List String} (h : WellFormed (head :: rest))
    {c : Char} (hc : c ≠ '.') : WellFormed (String.ofList (c :: head.toList) :: rest) := by
  obtain ⟨hhead, hrest⟩ := List.forall_mem_cons.1 h
  refine List.forall_mem_cons.2 ⟨?_, hrest⟩
  rw [String.toList_ofList, List.mem_cons]
  exact fun hmem => hmem.elim (fun heq => hc heq.symm) hhead

end Path

namespace Engine

variable (engine : Engine)

def IsMarked (segment : String) : Prop := [engine.config.marker] <+: segment.toList

def IsEscaped (segment : String) : Prop :=
  [engine.config.marker, engine.config.marker] <+: segment.toList

instance (segment : String) : Decidable (engine.IsMarked segment) :=
  inferInstanceAs (Decidable (_ <+: _))

instance (segment : String) : Decidable (engine.IsEscaped segment) :=
  inferInstanceAs (Decidable (_ <+: _))

/-- The segment asks for an attribute: it is no escape and not the cache prefix, and it is the
config prefix or starts with the marker. -/
def AsksProvider (segment : String) : Prop :=
  ¬ engine.IsEscaped segment ∧ segment ≠ engine.config.cachePrefix ∧
    (segment = engine.config.configPrefix ∨ engine.IsMarked segment)

/-- The path that leads to what a path names in the payload: with one marker more, if its first
segment starts with the marker. -/
def escape (path : Path) : Path :=
  match path.first? with
  | some head =>
    if engine.IsMarked head then
      Path.parse (String.ofList (engine.config.marker :: path.text.toList))
    else path
  | none => path

variable {engine}

theorem route_nil {path : Path} (h : path.segments = []) : engine.route path = .whole := by
  unfold route
  rw [h]

/-- The questions that the first segment of a path answers, in their order. -/
theorem route_cons {path : Path} {head : String} {rest : List String}
    (h : path.segments = head :: rest) :
    engine.route path =
      if engine.IsEscaped head then .payload (String.ofList head.toList.tail :: rest)
      else if head = engine.config.cachePrefix then .cache rest.head? rest.tail
      else if head = engine.config.configPrefix then attributeRoute configScope rest
      else if engine.IsMarked head then
        attributeRoute (engine.scopeFor (String.ofList head.toList.tail)) rest
      else .payload (head :: rest) := by
  unfold route
  rw [h]
  dsimp only
  unfold markedRoute plainRoute
  cases hchars : head.toList with
  | nil =>
    have hescaped : ¬ engine.IsEscaped head := by simp [IsEscaped, hchars]
    have hmarked : ¬ engine.IsMarked head := by simp [IsMarked, hchars]
    simp only [if_neg hescaped, if_neg hmarked]
  | cons c more =>
    have hmarked : engine.IsMarked head ↔ c = engine.config.marker := by
      simp [IsMarked, hchars, eq_comm]
    cases more with
    | nil =>
      have hescaped : ¬ engine.IsEscaped head := by simp [IsEscaped, hchars]
      simp only [if_neg hescaped, hmarked]
      split_ifs <;> rfl
    | cons d more =>
      have hescaped : engine.IsEscaped head ↔
          c = engine.config.marker ∧ d = engine.config.marker := by
        simp [IsEscaped, hchars, eq_comm]
      simp only [hescaped, hmarked]
      split_ifs <;> rfl

theorem IsEscaped.isMarked {segment : String} (h : engine.IsEscaped segment) :
    engine.IsMarked segment :=
  List.IsPrefix.trans (List.cons_prefix_cons.2 ⟨rfl, List.nil_prefix⟩) h

theorem route_provider {path : Path} {scope name : String} {rest : List String}
    (h : engine.route path = .provider scope name rest) :
    (∃ head ∈ path.first?, engine.AsksProvider head) ∧
      (engine.providers.hasScope scope = true ∨ scope = configScope ∨ scope = instanceScope) := by
  cases hsegments : path.segments with
  | nil =>
    rw [route_nil hsegments] at h
    cases h
  | cons head more =>
    have hfirst : head ∈ path.first? := by simp [Path.first?, hsegments]
    rw [route_cons hsegments] at h
    split_ifs at h with hescaped hcache hconfig hmarked
    · obtain ⟨rfl, -⟩ := Route.provider.inj h
      exact ⟨⟨head, hfirst, hescaped, hcache, .inl hconfig⟩, .inr (.inl rfl)⟩
    · obtain ⟨rfl, -⟩ := Route.provider.inj h
      refine ⟨⟨head, hfirst, hescaped, hcache, .inr hmarked⟩, ?_⟩
      unfold scopeFor
      split
      · exact .inl ‹_›
      · exact .inr (.inr rfl)

theorem segments_escape_of_isMarked {path : Path} {head : String} {rest : List String}
    (h : path.segments = head :: rest) (hmarked : engine.IsMarked head) :
    (engine.escape path).segments =
      String.ofList (engine.config.marker :: head.toList) :: rest := by
  have hwell : Path.WellFormed (head :: rest) := h ▸ path.wellFormed
  -- no segment has a point, so the marker is none and the text with it falls apart as before
  have hpoint : engine.config.marker ≠ '.' := by
    intro hpoint
    have hmem : engine.config.marker ∈ head.toList := hmarked.subset List.mem_cons_self
    exact hwell head List.mem_cons_self (hpoint ▸ hmem)
  have hseveral : String.ofList (engine.config.marker :: head.toList) :: rest ≠ [""] := by
    intro hempty
    have hnil := congrArg String.toList (List.cons.inj hempty).1
    simp at hnil
  have hfirst : path.first? = some head := by simp [Path.first?, h]
  unfold escape
  rw [hfirst]
  dsimp only
  rw [if_pos hmarked]
  change Path.split (String.ofList (engine.config.marker :: (Path.join path.segments).toList)) = _
  rw [h, ← Path.join_push, Path.split_join (hwell.push hpoint) hseveral]

theorem route_escape (hconfig : engine.IsMarked engine.config.configPrefix)
    (hcache : engine.IsMarked engine.config.cachePrefix) {path : Path} {head : String}
    {rest : List String} (h : path.segments = head :: rest) :
    engine.route (engine.escape path) = .payload (head :: rest) := by
  by_cases hmarked : engine.IsMarked head
  · rw [route_cons (segments_escape_of_isMarked h hmarked), String.toList_ofList,
      List.tail_cons, String.ofList_toList, if_pos]
    unfold IsEscaped
    rw [String.toList_ofList]
    exact List.cons_prefix_cons.2 ⟨rfl, hmarked⟩
  · have hplain : engine.escape path = path := by
      unfold escape
      rw [show path.first? = some head by simp [Path.first?, h]]
      exact if_neg hmarked
    have hnotCache : head ≠ engine.config.cachePrefix := fun heq => hmarked (heq ▸ hcache)
    have hnotConfig : head ≠ engine.config.configPrefix := fun heq => hmarked (heq ▸ hconfig)
    rw [hplain, route_cons h, if_neg fun hescaped => hmarked hescaped.isMarked,
      if_neg hnotCache, if_neg hnotConfig, if_neg hmarked]

/-- With prefixes that start with the marker every path of the payload can be looked up, whatever
providers and cached values there are: the escaped path gives what the path reads, or fails as it
does, and the context stays as it is. -/
theorem lookUp_escape (engine : Engine) (path : Path) (base : Value) (session : Session)
    (hconfig : engine.IsMarked engine.config.configPrefix)
    (hcache : engine.IsMarked engine.config.cachePrefix) :
    let looked := (engine.lookUp (engine.escape path) base).run session
    looked.1 = .ok (path.read base) ∧ looked.2.context = session.context := by
  intro looked
  unfold Path.read
  cases hsegments : path.segments with
  | nil =>
    have hwhole : engine.route (engine.escape path) = .whole := by
      refine route_nil ?_
      unfold escape
      rw [show path.first? = none by simp [Path.first?, hsegments]]
      exact hsegments
    have hlooked : looked = (.ok (.ok base), session) := by
      simp only [looked, lookUp, hwhole]
      rfl
    rw [hlooked]
    exact ⟨rfl, rfl⟩
  | cons head rest =>
    have hlooked : looked = (Eval.read base (head :: rest)).run session := by
      simp only [looked, lookUp, route_escape hconfig hcache hsegments]
    rw [hlooked]
    unfold Eval.read
    cases Path.readSegments base (head :: rest) with
    | ok v => exact ⟨rfl, rfl⟩
    | error e => exact ⟨rfl, rfl⟩

/-- A payload with keys that providers, the cache and an escape are asked for by. -/
theorem lookUp_escape_reserved :
    let engine : Engine := { providers :=
      [("config", .ofFields [("a", .null)]), ("self", fun name => some (.string name))] }
    let base : Value := .object
      [("$$b", .string "escape"), ("$cache", .object [("a", .string "cache")]),
        ("$config", .object [("a", .string "config")])]
    let session : Session := { context := { cache := [("a", .null)] } }
    let looked := fun text : String =>
      ((engine.lookUp (engine.escape (Path.parse text)) base).run session).1
    engine.IsMarked engine.config.configPrefix ∧ engine.IsMarked engine.config.cachePrefix ∧
      looked "$config.a" = .ok (.ok (.string "config")) ∧
      looked "$cache.a" = .ok (.ok (.string "cache")) ∧
      looked "$$b" = .ok (.ok (.string "escape")) ∧
      looked "$self.b" = .ok (.error ⟨"$self.b", "$self", .missing⟩) := by
  intro engine base session looked
  have hconfig : engine.IsMarked engine.config.configPrefix := by decide
  have hcache : engine.IsMarked engine.config.cachePrefix := by decide
  have hreads : ∀ text found, (Path.parse text).read base = found → looked text = .ok found := by
    rintro text found rfl
    exact (lookUp_escape engine (Path.parse text) base session hconfig hcache).1
  exact ⟨hconfig, hcache, hreads _ _ rfl, hreads _ _ rfl, hreads _ _ rfl, hreads _ _ rfl⟩

end Engine

end PayloadMapping
