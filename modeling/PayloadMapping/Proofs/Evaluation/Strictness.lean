import PayloadMapping.Proofs.Evaluation.Trace

set_option autoImplicit false

/-!
# Strict and lenient evaluations

A lenient engine notes an action that fails and goes on with null; a strict engine ends there.
`run_strict_cuts_lenient` says that this is the only difference: the strict evaluation is the
lenient one cut before the first diagnostic of a failed action.
-/

namespace PayloadMapping

namespace Engine

def withStrictness (engine : Engine) (strict : Bool) : Engine :=
  { engine with config := { engine.config with failOnActionError := strict } }

/-- How a strict trace comes from a lenient one: it is the same if no action fails, and else
ends with the error where the lenient one notes the first failure. -/
inductive Cut {α : Type} :
    Except EngineError α × List Change → Except EngineError α × List Change → Prop
  | same (outcome : Except EngineError α) {changes : List Change}
      (quiet : ∀ change ∈ changes, change.Within (· ≠ .actionFailed) True) :
      Cut (outcome, changes) (outcome, changes)
  | cut (target : String) (error : ActionError) (event : Event) {before : List Change}
      (after : List Change) (outcome : Except EngineError α)
      (quiet : ∀ change ∈ before, change.Within (· ≠ .actionFailed) True) :
      Cut (.error (.action target error), before)
        (outcome, before ++ .note event ⟨.warning, .actionFailed, target, error.message⟩ :: after)

def Cuts {α : Type} (strict lenient : Eval α) : Prop :=
  ∀ cache : Fields Value, ∃ s l, Eval.Traced strict cache s.1 s.2 ∧
    Eval.Traced lenient cache l.1 l.2 ∧ Cut s l

namespace Cuts

variable {α β : Type}

theorem of_makes {step : Eval α} (h : Eval.Makes (· ≠ .actionFailed) True step) :
    Cuts step step := by
  intro cache
  obtain ⟨outcome, changes, htrace, hquiet⟩ := h cache
  exact ⟨(outcome, changes), (outcome, changes), htrace, htrace, .same outcome hquiet⟩

theorem pure (a : α) : Cuts (Pure.pure a) (Pure.pure a) := of_makes (.pure a)

theorem bind {strict lenient : Eval α} {strictNext lenientNext : α → Eval β}
    (h : Cuts strict lenient) (hnext : ∀ a, Cuts (strictNext a) (lenientNext a)) :
    Cuts (strict >>= strictNext) (lenient >>= lenientNext) := by
  intro cache
  obtain ⟨s, l, hs, hl, hcut⟩ := h cache
  cases hcut with
  | @same outcome changes quiet =>
    cases outcome with
    | error e =>
      exact ⟨(.error e, changes), (.error e, changes), hs.bind_error, hl.bind_error,
        .same _ quiet⟩
    | ok a =>
      obtain ⟨s', l', hs', hl', hcut'⟩ := hnext a (changes.foldl Change.cacheAfter cache)
      refine ⟨(s'.1, changes ++ s'.2), (l'.1, changes ++ l'.2), hs.bind_ok hs', hl.bind_ok hl', ?_⟩
      cases hcut' with
      | same final more => exact .same final (List.forall_mem_append.2 ⟨quiet, more⟩)
      | @cut target error event before after final more =>
        have hjoined := Cut.cut target error event after final
          (List.forall_mem_append.2 ⟨quiet, more⟩)
        simpa only [List.append_assoc] using hjoined
  | @cut target error event before after outcome quiet =>
    -- the strict step has ended; the lenient one goes on, whatever comes next
    cases outcome with
    | error e =>
      exact ⟨(.error (.action target error), before), (.error e, _), hs.bind_error,
        hl.bind_error, .cut target error event after _ quiet⟩
    | ok a =>
      obtain ⟨_, l', _, hl', _⟩ := hnext a (List.foldl Change.cacheAfter cache _)
      refine ⟨(.error (.action target error), before), (l'.1, _), hs.bind_error,
        hl.bind_ok hl', ?_⟩
      have hjoined := Cut.cut target error event (after ++ l'.2) l'.1 quiet
      simpa only [List.append_assoc, List.cons_append] using hjoined

theorem mapM {strict lenient : α → Eval β} (items : List α)
    (h : ∀ item, Cuts (strict item) (lenient item)) :
    Cuts (items.mapM strict) (items.mapM lenient) := by
  induction items with
  | nil => exact pure []
  | cons item rest ih =>
    rw [List.mapM_cons, List.mapM_cons]
    exact (h item).bind fun _ => ih.bind fun _ => pure _

end Cuts

open Eval

theorem act_cuts (engine : Engine) (action : Action) (value scope : Value) (target : String) :
    Cuts ((engine.withStrictness true).act action value scope target)
      ((engine.withStrictness false).act action value scope target) := by
  unfold act
  refine (Cuts.of_makes (.report _)).bind fun _ => ?_
  split
  · exact .pure _
  · rename_i e _
    intro cache
    have hstrict : Traced (MonadExcept.throw (EngineError.action target e) : Eval Value) cache
        (.error (.action target e)) [] := .throw _
    have hlenient : Traced (do
        note (.actionFailed target action.name e.message)
          ⟨.warning, .actionFailed, target, e.message⟩
        return Value.null) cache (.ok .null)
        [.note (.actionFailed target action.name e.message)
          ⟨.warning, .actionFailed, target, e.message⟩] :=
      (Traced.note _ _).bind_ok (.pure _)
    exact ⟨(.error (.action target e), []), (.ok .null, _), hstrict, hlenient,
      .cut target e _ [] _ (by simp)⟩

theorem actIfAny_cuts (engine : Engine) (action : Option Action) (value scope : Value)
    (target : String) :
    Cuts ((engine.withStrictness true).actIfAny action value scope target)
      ((engine.withStrictness false).actIfAny action value scope target) := by
  cases action with
  | none => exact .pure _
  | some action => exact act_cuts engine action value scope target

theorem fieldValue_cuts (engine : Engine) (rule : FieldRule) (current parent : Value) :
    Cuts ((engine.withStrictness true).fieldValue rule current parent)
      ((engine.withStrictness false).fieldValue rule current parent) := by
  unfold fieldValue
  -- lookups do not depend on the strictness, so both start in the same way
  refine (Cuts.of_makes (start_makes (engine.withStrictness false) rule current parent)).bind
    fun found => ?_
  split
  · refine (actIfAny_cuts _ _ _ _ _).bind fun v => ?_
    exact (Cuts.of_makes (keep_makes _ _ fun _ => trivial)).bind fun _ => .pure _
  · exact .of_makes ((noteUnresolved_makes _ _ _ (by simp) (by simp)).bind fun _ => .pure _)

theorem loopValue_cuts (engine : Engine) {strict lenient : Value → Eval Value}
    (source target : Path) (action : Option Action) (current : Value)
    (h : ∀ item, Cuts (strict item) (lenient item)) :
    Cuts ((engine.withStrictness true).loopValue strict source target action current)
      ((engine.withStrictness false).loopValue lenient source target action current) := by
  unfold loopValue
  refine (Cuts.of_makes (read_makes _ _)).bind fun found => ?_
  split
  · refine (Cuts.of_makes (.report _)).bind fun _ => (Cuts.mapM _ h).bind fun documents => ?_
    exact actIfAny_cuts _ _ _ _ _
  · exact .of_makes (.bind (.note _ (by simp)) fun _ => .pure _)
  · exact .of_makes (.bind (.note _ (by simp)) fun _ => .pure _)
  · exact .of_makes ((noteUnresolved_makes _ _ _ (by simp) (by simp)).bind fun _ => .pure _)

mutual

theorem evaluateRule_cuts (engine : Engine) : ∀ (rule : Rule) (current parent result : Value),
    Cuts ((engine.withStrictness true).evaluateRule rule current parent result)
      ((engine.withStrictness false).evaluateRule rule current parent result)
  | .field rule, current, parent, result => by
    rw [evaluateRule, evaluateRule]
    refine (fieldValue_cuts engine rule current parent).bind fun v => ?_
    exact .of_makes (place_makes _ _ _ (by simp))
  | .group rules, current, parent, result => by
    rw [evaluateRule, evaluateRule]
    exact (evaluateRules_cuts engine rules current parent .empty).bind fun _ => .pure _
  | .loop source target rules action, current, parent, result => by
    rw [evaluateRule, evaluateRule]
    refine (loopValue_cuts engine source target action current fun item =>
      evaluateRules_cuts engine rules item current .empty).bind fun v => ?_
    exact (Cuts.of_makes (place_makes _ _ _ (by simp))).bind fun _ => .pure _

theorem evaluateRules_cuts (engine : Engine) :
    ∀ (rules : List Rule) (current parent result : Value),
    Cuts ((engine.withStrictness true).evaluateRules rules current parent result)
      ((engine.withStrictness false).evaluateRules rules current parent result)
  | [], current, parent, result => by
    rw [evaluateRules, evaluateRules]
    exact .pure _
  | rule :: rest, current, parent, result => by
    rw [evaluateRules, evaluateRules]
    refine (evaluateRule_cuts engine rule current parent result).bind fun reached => ?_
    exact evaluateRules_cuts engine rest current parent reached

end

theorem document_cuts (engine : Engine) (mapping : Mapping) (source : Value) :
    Cuts ((engine.withStrictness true).document mapping source)
      ((engine.withStrictness false).document mapping source) :=
  (Cuts.of_makes (.report _)).bind fun _ => evaluateRules_cuts engine _ _ _ _

theorem eq_of_split_at_first {α : Type} {p : α → Prop} {before before' after after' : List α}
    {x x' : α} (h : before ++ x :: after = before' ++ x' :: after')
    (hbefore : ∀ y ∈ before, ¬ p y) (hbefore' : ∀ y ∈ before', ¬ p y) (hx : p x) (hx' : p x') :
    before = before' ∧ x = x' := by
  induction before generalizing before' with
  | nil =>
    cases before' with
    | nil => exact ⟨rfl, (List.cons.inj h).1⟩
    | cons y ys =>
      obtain ⟨rfl, _⟩ := List.cons.inj h
      exact absurd hx (hbefore' x List.mem_cons_self)
  | cons y ys ih =>
    cases before' with
    | nil =>
      obtain ⟨rfl, _⟩ := List.cons.inj h
      exact absurd hx' (hbefore y List.mem_cons_self)
    | cons y' ys' =>
      obtain ⟨rfl, hrest⟩ := List.cons.inj h
      obtain ⟨rfl, rfl⟩ := ih hrest (fun z hz => hbefore z (List.mem_cons_of_mem _ hz))
        (fun z hz => hbefore' z (List.mem_cons_of_mem _ hz))
      exact ⟨rfl, rfl⟩

/-- The strict evaluation is the lenient one, cut at the first action that fails: without a
failure both end alike, and else the strict one ends with that failure as its error, with the
diagnostics from before it, and with no id and no cached value that the lenient one has not. -/
theorem run_strict_cuts_lenient (engine : Engine) (mapping : Mapping) (source : Value)
    (session : Session) :
    let lenient := (engine.withStrictness false).run mapping source session
    let strict := (engine.withStrictness true).run mapping source session
    ∃ added, lenient.2.context.diagnostics = session.context.diagnostics ++ added ∧
      ((∀ d ∈ added, d.kind ≠ .actionFailed) → strict = lenient) ∧
      ∀ before failed after, added = before ++ failed :: after →
        (∀ d ∈ before, d.kind ≠ .actionFailed) → failed.kind = .actionFailed →
        ∃ error : ActionError, strict.1 = .error (.action failed.target error) ∧
          error.message = failed.message ∧
          strict.2.context.diagnostics = session.context.diagnostics ++ before ∧
          strict.2.context.uniqueIds <+: lenient.2.context.uniqueIds ∧
          ∀ key value, Fields.get? key strict.2.context.cache = some value →
            Fields.get? key lenient.2.context.cache = some value := by
  intro lenient strict
  obtain ⟨s, l, hs, hl, hcut⟩ := document_cuts engine mapping source session.context.cache
  have hstrict : strict = (s.1, session.after s.2) := hs session rfl
  have hlenient : lenient = (l.1, session.after l.2) := hl session rfl
  rw [hstrict, hlenient]
  refine ⟨l.2.filterMap Change.diagnostic?, session.after_diagnostics l.2, ?_⟩
  cases hcut with
  | same outcome quiet =>
    have hkinds := Change.kinds_of_within quiet
    refine ⟨fun _ => rfl, fun before failed after hsplit _ hfailed => ?_⟩
    exact absurd hfailed (hkinds failed (by simp [hsplit]))
  | @cut target error event before after outcome quiet =>
    have hadded : List.filterMap Change.diagnostic?
        (before ++ .note event ⟨.warning, .actionFailed, target, error.message⟩ :: after) =
        before.filterMap Change.diagnostic? ++
          ⟨.warning, .actionFailed, target, error.message⟩ ::
            after.filterMap Change.diagnostic? := by
      simp [List.filterMap_append, Change.diagnostic?]
    rw [hadded]
    refine ⟨fun hnone => ?_, fun before' failed after' hsplit hbefore hfailed => ?_⟩
    · exact absurd rfl (hnone _ (List.mem_append_right _ List.mem_cons_self))
    · obtain ⟨rfl, rfl⟩ := eq_of_split_at_first (p := fun d => d.kind = .actionFailed) hsplit
        (Change.kinds_of_within quiet) hbefore rfl hfailed
      rw [Session.after_append]
      exact ⟨error, rfl, rfl, session.after_diagnostics before,
        Session.uniqueIds_prefix_after _ _, fun _ _ h => Session.get?_cache_after _ h⟩

end Engine

end PayloadMapping
