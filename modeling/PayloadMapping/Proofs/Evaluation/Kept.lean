import PayloadMapping.Proofs.Evaluation.Visits

set_option autoImplicit false

/-!
# What visits keep

A visit keeps the value of its rule, after the action, if the lookup succeeded and the evaluation
did not end: as an id, under a key of the cache, or both. A visit without such a value keeps
nothing. So a run leaves under a key what was there before it, or else what the first of its
visits kept there.
-/

namespace PayloadMapping

/-- What a field rule makes of the value that it found: the result of its action, and null when
the action fails and the evaluation goes on. -/
def Engine.settle (engine : Engine) (rule : FieldRule) (found current : Value) : Option Value :=
  match rule.action with
  | none => some found
  | some action =>
    match action.apply found current with
    | .ok v => some v
    | .error _ => if engine.config.failOnActionError then none else some .null

def FieldRule.keeps (rule : FieldRule) (value : Value) : List Change :=
  (if rule.isUniqueId then [.recordId rule.target.text value] else []) ++
    if rule.addToCache then (rule.target.first?.map fun key => .remember key value).toList else []

namespace Visit

variable (engine : Engine) (visit : Visit)

def value? : Option Value :=
  match visit.found engine with
  | .ok (.ok found) => engine.settle visit.site.rule found visit.site.current
  | _ => none

def remembered? (key : String) : Option Value :=
  if visit.site.rule.addToCache = true ∧ visit.site.rule.target.first? = some key then
    visit.value? engine
  else none

def recorded? : Option Value :=
  if visit.site.rule.isUniqueId then visit.value? engine else none

end Visit

theorem FieldRule.findSome?_keeps (rule : FieldRule) (value : Value) (key : String) :
    (rule.keeps value).findSome? (Change.remembered? key) =
      if rule.addToCache = true ∧ rule.target.first? = some key then some value else none := by
  have hid : (if rule.isUniqueId then [Change.recordId rule.target.text value] else []).findSome?
      (Change.remembered? key) = none := by
    split <;> rfl
  rw [FieldRule.keeps, List.findSome?_append, hid, Option.none_or]
  by_cases hcache : rule.addToCache = true
  · cases hfirst : rule.target.first? with
    | none => simp [hcache]
    | some first => simp [hcache, Change.remembered?]
  · simp [hcache]

theorem FieldRule.filterMap_keeps (rule : FieldRule) (value : Value) :
    (rule.keeps value).filterMap Change.id? = if rule.isUniqueId then [value] else [] := by
  have hcached : (if rule.addToCache then
      (rule.target.first?.map fun key => Change.remember key value).toList else []).filterMap
      Change.id? = [] := by
    split
    · cases rule.target.first? <;> rfl
    · rfl
  rw [FieldRule.keeps, List.filterMap_append, hcached, List.append_nil]
  split <;> rfl

theorem FieldRule.filterMap_diagnostic_keeps (rule : FieldRule) (value : Value) :
    (rule.keeps value).filterMap Change.diagnostic? = [] := by
  unfold FieldRule.keeps
  rw [List.filterMap_append]
  cases rule.isUniqueId <;> cases rule.addToCache <;> cases rule.target.first? <;> rfl

namespace Engine

open Eval
open Session (Quiet)

theorem keep_traced (rule : FieldRule) (value : Value) (cache : Fields Value) :
    Traced (keep rule value) cache (.ok ()) (rule.keeps value) := by
  unfold keep FieldRule.keeps
  have hrecorded : ∀ {next : Eval Unit} {changes : List Change},
      (∀ cache, Traced next cache (.ok ()) changes) →
      Traced (if rule.isUniqueId then recordId rule.target.text value >>= fun _ => next else next)
        cache (.ok ())
        ((if rule.isUniqueId then [.recordId rule.target.text value] else []) ++ changes) := by
    intro next changes hnext
    split
    · exact (Traced.recordId _ _).bind_ok (hnext _)
    · exact hnext cache
  refine hrecorded fun cache => ?_
  split
  · cases rule.target.first? with
    | none => exact .pure ()
    | some key => exact .remember key value
  · exact .pure ()

theorem actIfAny_outcome (engine : Engine) (rule : FieldRule) (found current : Value)
    (session : Session) :
    ((engine.actIfAny rule.action found current rule.target.text).run session).1.toOption =
      engine.settle rule found current := by
  unfold actIfAny settle
  cases rule.action with
  | none => rfl
  | some action =>
    dsimp only
    unfold act
    rw [run_bind]
    cases action.apply found current with
    | ok v => rfl
    | error e =>
      by_cases hstrict : engine.config.failOnActionError = true
      · simp only [hstrict, if_true]
        rfl
      · simp only [if_neg hstrict]
        rfl

end Engine

namespace Visit

open Eval Engine

variable {engine : Engine} {visit : Visit}

/-- A visit with a value ends with it, after keeping it. One without a value keeps nothing: its
lookup found nothing, or the evaluation ends there. -/
theorem ran_cases (engine : Engine) (visit : Visit) :
    (∃ value s, visit.value? engine = some value ∧ visit.session.Quiet s ∧
      visit.ran engine = (.ok value, s.after (visit.site.rule.keeps value))) ∨
    (visit.value? engine = none ∧ visit.session.Quiet (visit.ran engine).2 ∧
      ((∃ e, visit.found engine = .ok (.error e)) ∨ ∃ e, (visit.ran engine).1 = .error e)) := by
  have hstart : Notes (engine.start visit.site.rule visit.site.current visit.site.parent) :=
    Notes.closed.start engine _ _ _ ⟨fun _ _ _ _ _ => trivial, fun _ _ _ _ _ _ _ _ => trivial⟩
  have hquiet := hstart visit.session
  unfold value? ran found Engine.fieldValue
  rw [run_bind]
  generalize (engine.start visit.site.rule visit.site.current visit.site.parent).run
    visit.session = started at hquiet ⊢
  -- the lookup ends the evaluation, or fails, or finds a value
  obtain ⟨e | e | found, reached⟩ := started
  · exact .inr ⟨rfl, hquiet, .inr ⟨e, rfl⟩⟩
  · have hnotes : Notes (do
        noteUnresolved visit.site.rule.target.text e visit.site.rule.isOptional
        return Value.null) :=
      Notes.closed.bind (Notes.closed.noteUnresolved _ _ _ (Permits.free _ _ _).misses)
        fun _ => Notes.closed.pure _
    exact .inr ⟨rfl, hquiet.trans (hnotes reached), .inl ⟨e, rfl⟩⟩
  · have hacted := actIfAny_notes engine visit.site.rule.action found visit.site.current
      visit.site.rule.target.text reached
    have hsettled := actIfAny_outcome engine visit.site.rule found visit.site.current reached
    dsimp only
    rw [run_bind]
    generalize (engine.actIfAny visit.site.rule.action found visit.site.current
      visit.site.rule.target.text).run reached = acted at hacted hsettled ⊢
    obtain ⟨e | value, s⟩ := acted
    · exact .inr ⟨hsettled.symm, hquiet.trans hacted, .inr ⟨e, rfl⟩⟩
    · have hkept : Traced (do
          keep visit.site.rule value
          return value) s.context.cache (.ok value) (visit.site.rule.keeps value ++ []) :=
        (keep_traced _ _ _).bind_ok (.pure _)
      rw [List.append_nil] at hkept
      exact .inl ⟨value, s, hsettled.symm, hquiet.trans hacted, hkept s rfl⟩

theorem get?_cache_ran (engine : Engine) (visit : Visit) (key : String) :
    Fields.get? key (visit.ran engine).2.context.cache =
      (Fields.get? key visit.session.context.cache).or (visit.remembered? engine key) := by
  unfold remembered?
  rcases ran_cases engine visit with ⟨value, s, hvalue, hquiet, hran⟩ | ⟨hnone, hquiet, _⟩
  · rw [hran, Session.get?_cache_after_eq, hquiet.cache, FieldRule.findSome?_keeps, hvalue]
  · rw [hquiet.cache, hnone, ite_self, Option.or_none]

end Visit

namespace Engine.Leads

open Session (Quiet)

variable {engine : Engine} {s t : Session} {visits : List Visit}

/-- Along visits a key holds what it held at first, or else what the first visit to keep a value
under it kept. -/
theorem get?_cache (h : Leads engine s visits t) (key : String) :
    Fields.get? key t.context.cache =
      (Fields.get? key s.context.cache).or (visits.findSome? (Visit.remembered? engine · key)) := by
  induction visits generalizing s with
  | nil =>
    have hquiet : s.Quiet t := h
    rw [hquiet.cache, List.findSome?_nil, Option.or_none]
  | cons visit rest ih =>
    rw [ih h.2.2, Visit.get?_cache_ran, h.1.cache, Option.or_assoc, List.findSome?_cons]
    cases visit.remembered? engine key with
    | none => rw [Option.none_or]
    | some value => rw [Option.some_or]

end Engine.Leads

end PayloadMapping
