import PayloadMapping.Engine.Operation
import PayloadMapping.Proofs.Evaluation.Kept

set_option autoImplicit false

/-!
# What a context remembers

A run only extends its context, and the first value kept under a key stays there. So a lookup in
the cache has one of two results: before the visit that keeps a value under its key there is
nothing, and after it there is that value. `run_extends_context` says so of every run, whether
it succeeds or not, and of the operations between runs.
-/

namespace PayloadMapping

theorem Eval.read_outcome (source : Value) (segments : List String) (session : Session) :
    ((read source segments).run session).1 = .ok (Path.readSegments source segments) := by
  unfold read
  cases Path.readSegments source segments <;> rfl

namespace Visit

def KeepsUnder (visit : Visit) (key : String) : Prop :=
  visit.site.rule.addToCache = true ∧ visit.site.rule.target.first? = some key

/-- The rule of the visit looks up a path that leads to the key of the cache and on from there. -/
def LooksUnder (visit : Visit) (engine : Engine) (path : Path) (key : String)
    (rest : List String) : Prop :=
  visit.site.rule.source = some path ∧ engine.route path = .cache (some key) rest

variable {engine : Engine} {visit : Visit} {key : String}

theorem found_of_looksUnder {path : Path} {rest : List String}
    (h : visit.LooksUnder engine path key rest) :
    visit.found engine = .ok (match Fields.get? key visit.session.context.cache with
      | some v => Path.readSegments v rest
      | none => .error ⟨path.text, key, .missing⟩) := by
  unfold found Engine.start Engine.lookUp
  simp only [h.1, h.2]
  rw [Eval.run_context_bind]
  cases Fields.get? key visit.session.context.cache with
  | none => rfl
  | some v => exact Eval.read_outcome v rest visit.session

theorem exists_found_of_remembered? {value : Value}
    (h : visit.remembered? engine key = some value) : visit.KeepsUnder key ∧
      ∃ found, visit.found engine = .ok (.ok found) ∧
        engine.settle visit.site.rule found visit.site.current = some value := by
  unfold remembered? at h
  split at h
  · rename_i hkeeps
    refine ⟨hkeeps, ?_⟩
    unfold value? at h
    split at h
    · rename_i found hfound
      exact ⟨found, hfound, h⟩
    · cases h
  · cases h

theorem lookUp_failed_of_not_remembered {v : Value} (hkeeps : visit.KeepsUnder key)
    (hnone : visit.remembered? engine key = none) (hok : (visit.ran engine).1 = .ok v) :
    ∃ e, visit.found engine = .ok (.error e) := by
  have hvalue : visit.value? engine = none := by
    unfold remembered? at hnone
    rwa [if_pos (show _ ∧ _ from hkeeps)] at hnone
  rcases ran_cases engine visit with ⟨value, s, hsome, _⟩ | ⟨_, _, hfailed⟩
  · rw [hvalue] at hsome
    cases hsome
  · rcases hfailed with hfound | ⟨e, herror⟩
    · exact hfound
    · rw [herror] at hok
      cases hok

end Visit

namespace Context

theorem get?_cache_perform {context : Context} {operation : Operation} {key : String}
    {value : Value} (hkeeps : operation.forgets = false)
    (h : Fields.get? key context.cache = some value) :
    Fields.get? key (context.perform operation).cache = some value := by
  cases operation with
  | evaluate engine mapping source =>
    obtain ⟨changes, hrun⟩ := engine.exists_run_eq_after mapping source { context := context }
    rw [perform, hrun]
    exact Session.get?_cache_after changes h
  | remember other found =>
    rw [perform, remember_cache]
    exact get?_rememberIn h
  | recordId id =>
    rw [perform, recordId_cache]
    exact h
  | lookUp _ | addDiagnostic _ => exact h
  | clearCache | reset => cases hkeeps

theorem get?_cache_performAll {context : Context} {operations : List Operation} {key : String}
    {value : Value} (hkeeps : ∀ operation ∈ operations, operation.forgets = false)
    (h : Fields.get? key context.cache = some value) :
    Fields.get? key (context.performAll operations).cache = some value := by
  unfold performAll
  induction operations generalizing context with
  | nil => exact h
  | cons operation rest ih =>
    obtain ⟨hfirst, hrest⟩ := List.forall_mem_cons.1 hkeeps
    exact ih hrest (get?_cache_perform hfirst h)

end Context

namespace Engine

section

variable {engine : Engine} {s t : Session} {before after : List Visit} {visit other : Visit}
  {key : String} {value : Value}

theorem Leads.get?_cache_before (h : Leads engine s (before ++ visit :: after) t)
    (hfree : Fields.get? key s.context.cache = none)
    (hnone : ∀ earlier ∈ before, earlier.remembered? engine key = none) :
    Fields.get? key visit.session.context.cache = none := by
  rw [h.split.1.get?_cache key, hfree, List.findSome?_eq_none_iff.2 hnone, Option.none_or]

theorem Leads.get?_cache_up_to (h : Leads engine s (before ++ visit :: after) t)
    (hfree : Fields.get? key s.context.cache = none)
    (hnone : ∀ earlier ∈ before, earlier.remembered? engine key = none)
    (hother : other ∈ before ++ [visit]) :
    Fields.get? key other.session.context.cache = none := by
  rcases List.mem_append.1 hother with hother | hother
  · obtain ⟨first, last, rfl⟩ := List.append_of_mem hother
    rw [List.append_assoc, List.cons_append] at h
    exact h.get?_cache_before hfree fun earlier hearlier =>
      hnone earlier (List.mem_append_left _ hearlier)
  · rw [List.mem_singleton.1 hother]
    exact h.get?_cache_before hfree hnone

theorem Leads.get?_cache_behind (h : Leads engine s (before ++ visit :: after) t)
    (hfree : Fields.get? key s.context.cache = none)
    (hnone : ∀ earlier ∈ before, earlier.remembered? engine key = none)
    (hsome : visit.remembered? engine key = some value) (hother : other ∈ after) :
    Fields.get? key other.session.context.cache = some value := by
  obtain ⟨first, last, rfl⟩ := List.append_of_mem hother
  have hwhole : before ++ visit :: (first ++ other :: last) =
      (before ++ visit :: first) ++ other :: last := by
    rw [List.append_assoc, List.cons_append]
  have hfound : (before ++ visit :: first).findSome? (Visit.remembered? engine · key) =
      some value :=
    List.findSome?_eq_some_iff.2 ⟨before, visit, first, rfl, hsome, hnone⟩
  rw [hwhole] at h
  rw [h.split.1.get?_cache key, hfree, hfound, Option.none_or]

end

/-- The visit, with those before and after it, is the first to keep a value under the key: those
before it that asked for the key found nothing to keep. Up to it lookups under the key miss, and
from then on they read the value. -/
structure FirstKept (engine : Engine) (rules : List Rule) (key : String) (value : Value)
    (before : List Visit) (visit : Visit) (after : List Visit) : Prop where
  declared : visit.site.rule ∈ Rule.fieldsAll rules
  asks : visit.KeepsUnder key
  kept : ∃ found, visit.found engine = .ok (.ok found) ∧
    engine.settle visit.site.rule found visit.site.current = some value
  first : ∀ earlier ∈ before, earlier.KeepsUnder key → ∃ e, earlier.found engine = .ok (.error e)
  missed : ∀ earlier ∈ before ++ [visit], ∀ path rest,
    earlier.LooksUnder engine path key rest →
      earlier.found engine = .ok (.error ⟨path.text, key, .missing⟩)
  read : ∀ later ∈ after, ∀ path rest, later.LooksUnder engine path key rest →
    later.found engine = .ok (Path.readSegments value rest)

theorem exists_firstKept (engine : Engine) (mapping : Mapping) (source : Value)
    (session : Session) {key : String} {value : Value}
    (hfree : Fields.get? key session.context.cache = none)
    (hkept : Fields.get? key (engine.run mapping source session).2.context.cache = some value) :
    ∃ before visit after,
      engine.visitsOf mapping source session = before ++ visit :: after ∧
        engine.FirstKept mapping.rules key value before visit after := by
  have hcovers := run_covers engine mapping source
  have hleads : Leads engine session (engine.visitsOf mapping source session)
    (engine.run mapping source session).2 := hcovers.leads session
  rw [hleads.get?_cache key, hfree, Option.none_or] at hkept
  obtain ⟨before, visit, after, hvisits, hsome, hnone⟩ := List.findSome?_eq_some_iff.1 hkept
  obtain ⟨hasks, hfound⟩ := Visit.exists_found_of_remembered? hsome
  have hordered := hcovers.ordered session
  rw [hvisits] at hleads hordered
  refine ⟨before, visit, after, hvisits, ?_, hasks, hfound, ?_, ?_, ?_⟩
  · have hmem : visit.site ∈ (before ++ visit :: after).map Visit.site :=
      List.mem_map.2 ⟨visit, by simp, rfl⟩
    exact Rule.rule_mem_fieldsAll_of_mem_sitesAll (hordered.subset hmem)
  · intro earlier hearlier hasks
    obtain ⟨v, hok⟩ := hleads.split.2 earlier hearlier
    exact Visit.lookUp_failed_of_not_remembered hasks (hnone earlier hearlier) hok
  · intro earlier hearlier path rest hlooks
    rw [Visit.found_of_looksUnder hlooks, hleads.get?_cache_up_to hfree hnone hearlier]
  · intro later hlater path rest hlooks
    rw [Visit.found_of_looksUnder hlooks, hleads.get?_cache_behind hfree hnone hsome hlater]

/-- A run adds diagnostics and ids at the end and changes no cached value, whether it succeeds or
not. Its visits follow each other from its first session to its last. They are for the sites of
the rules in order, all of them if it succeeds, and a new key holds what the first of them kept
under it. No operation on a context changes a cached value, unless it forgets all of them. -/
theorem run_extends_context (engine : Engine) (mapping : Mapping) (source : Value)
    (session : Session) :
    let ran := engine.run mapping source session
    let visits := engine.visitsOf mapping source session
    session.context.diagnostics <+: ran.2.context.diagnostics ∧
    session.context.uniqueIds <+: ran.2.context.uniqueIds ∧
    (∀ key value, Fields.get? key session.context.cache = some value →
      Fields.get? key ran.2.context.cache = some value) ∧
    engine.Leads session visits ran.2 ∧
    visits.map Visit.site <+: Rule.sitesAll mapping.rules source source ∧
    (∀ document, ran.1 = .ok document →
      visits.map Visit.site = Rule.sitesAll mapping.rules source source) ∧
    (∀ key value, Fields.get? key session.context.cache = none →
      Fields.get? key ran.2.context.cache = some value →
      ∃ before visit after, visits = before ++ visit :: after ∧
        engine.FirstKept mapping.rules key value before visit after) ∧
    ∀ (context : Context) (operations : List Operation) (key : String) (value : Value),
      (∀ operation ∈ operations, operation.forgets = false) →
      Fields.get? key context.cache = some value →
      Fields.get? key (context.performAll operations).cache = some value := by
  intro ran visits
  have hcovers := run_covers engine mapping source
  obtain ⟨changes, hran⟩ := exists_run_eq_after engine mapping source session
  have hran : ran.2 = session.after changes := hran
  refine ⟨?_, ?_, ?_, hcovers.leads session, hcovers.ordered session, ?_, ?_, ?_⟩
  · rw [hran]
    exact session.diagnostics_prefix_after changes
  · rw [hran]
    exact session.uniqueIds_prefix_after changes
  · intro key value h
    rw [hran]
    exact Session.get?_cache_after changes h
  · intro document h
    exact (hcovers.complete session document h).1
  · intro key value hfree hkept
    exact exists_firstKept engine mapping source session hfree hkept
  · intro context operations key value hkeeps h
    exact Context.get?_cache_performAll hkeeps h

/-- Of three legs the first has no code; the code of the second is kept, and found for the
third. It stays when the mapping is evaluated again and another code is to be kept. -/
theorem run_extends_context_legs :
    let known : FieldRule :=
      { source := some (Path.parse "$cache.code"), target := Path.parse "known" }
    let code : FieldRule :=
      { source := some (Path.parse "code"), target := Path.parse "code", addToCache := true }
    let mapping : Mapping := { rules :=
      [.loop (Path.parse "legs") (Path.parse "codes") [.field known, .field code] none] }
    let source : Value := .object [("legs", .array
      [.empty, .object [("code", .string "A")], .object [("code", .string "B")]])]
    let left := (({} : Engine).run mapping source {}).2.context
    let operations : List Operation := [.evaluate {} mapping source, .remember "code" .null]
    Fields.get? "code" ({} : Session).context.cache = none ∧
      Fields.get? "code" left.cache = some (.string "A") ∧
      (∃ before visit after, ({} : Engine).visitsOf mapping source {} = before ++ visit :: after ∧
        ({} : Engine).FirstKept mapping.rules "code" (.string "A") before visit after) ∧
      (∀ operation ∈ operations, operation.forgets = false) ∧
      Fields.get? "code" (left.performAll operations).cache = some (.string "A") := by
  intro known code mapping source left operations
  have hkept : Fields.get? "code" left.cache = some (.string "A") := by decide +kernel
  have hkeeps : ∀ operation ∈ operations, operation.forgets = false :=
    List.forall_mem_cons.2 ⟨rfl, List.forall_mem_singleton.2 rfl⟩
  obtain ⟨_, _, _, _, _, _, hnew, hstays⟩ := run_extends_context {} mapping source {}
  exact ⟨rfl, hkept, hnew "code" (.string "A") rfl hkept, hkeeps, hstays _ _ _ _ hkeeps hkept⟩

end Engine

end PayloadMapping
