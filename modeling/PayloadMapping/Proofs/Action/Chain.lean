import Mathlib.Data.List.Infix
import PayloadMapping.Action.Events
import PayloadMapping.Proofs.Mapping.Nested

set_option autoImplicit false

/-!
# Chains

A chain does what its leaves do, the parts at any depth that are no chains themselves: each leaf is
applied to what the one before it gave, and the first that fails ends the chain. The leaves come in
the order in which a mapping lists its actions, and how chains are nested around them makes no
difference.
-/

namespace PayloadMapping

namespace Action

def isChain : Action → Bool
  | .chain _ => true
  | _ => false

/-- The parts of an action that are no chains, depth first. -/
def leaves (action : Action) : List Action := action.flatten.filter (!·.isChain)

def leavesAll (actions : List Action) : List Action := (flattenAll actions).filter (!·.isChain)

theorem leaves_chain (actions : List Action) : leaves (.chain actions) = leavesAll actions := by
  simp [leaves, leavesAll, flatten, isChain]

theorem leaves_eq_singleton {action : Action} (h : action.isChain = false) :
    action.leaves = [action] := by
  cases action with
  | chain actions => cases h
  | affix _ _ _ _ | sum _ _ | capitalise | valueIn _ _ | extractIndex _ _ | listToDict _
  | flat _ _ _ | cast _ | text _ | default _ | reserved _ => rfl

theorem leavesAll_cons (action : Action) (rest : List Action) :
    leavesAll (action :: rest) = action.leaves ++ leavesAll rest := by
  simp [leaves, leavesAll, flattenAll]

/-! ## One after another -/

theorem applyAll_eq_foldlM (actions : List Action) (v scope : Value) :
    applyAll actions v scope = actions.foldlM (fun w action => apply action w scope) v := by
  induction actions generalizing v with
  | nil => rfl
  | cons action rest ih =>
    rw [applyAll, List.foldlM_cons]
    cases apply action v scope with
    | ok w => exact ih w
    | error e => rfl

theorem applyAll_append (actions more : List Action) (v scope : Value) :
    applyAll (actions ++ more) v scope =
      (applyAll actions v scope).bind fun w => applyAll more w scope := by
  simp only [applyAll_eq_foldlM, List.foldlM_append]
  rfl

theorem applyAll_error_iff {actions : List Action} {v scope : Value} {e : ActionError} :
    applyAll actions v scope = .error e ↔ ∃ before action after w,
      actions = before ++ action :: after ∧ applyAll before v scope = .ok w ∧
        apply action w scope = .error e := by
  constructor
  · intro h
    induction actions generalizing v with
    | nil => cases h
    | cons action rest ih =>
      rw [applyAll] at h
      cases hfirst : apply action v scope with
      | error e' =>
        rw [hfirst] at h
        cases h
        exact ⟨[], action, rest, v, rfl, rfl, hfirst⟩
      | ok u =>
        rw [hfirst] at h
        obtain ⟨before, failing, after, w, rfl, hbefore, hfails⟩ := ih h
        refine ⟨action :: before, failing, after, w, rfl, ?_, hfails⟩
        rw [applyAll, hfirst]
        exact hbefore
  · rintro ⟨before, action, after, w, rfl, hbefore, hfails⟩
    rw [applyAll_append, hbefore, Except.bind, applyAll, hfails]

/-- What comes after an error is not looked at. -/
theorem eventsAll_append (actions more : List Action) (v scope : Value) :
    eventsAll (actions ++ more) v scope = eventsAll actions v scope ++
      (applyAll actions v scope).toOption.elim [] fun w => eventsAll more w scope := by
  induction actions generalizing v with
  | nil => rfl
  | cons action rest ih =>
    rw [List.cons_append, eventsAll, eventsAll, applyAll]
    cases apply action v scope with
    | error e => simp [Except.toOption]
    | ok u => simp only [ih u, List.append_assoc]

/-! ## Leaf by leaf -/

theorem applyAll_singleton (action : Action) (v scope : Value) :
    applyAll [action] v scope = apply action v scope := by
  rw [applyAll]
  cases apply action v scope <;> rfl

theorem eventsAll_singleton (action : Action) (v scope : Value) :
    eventsAll [action] v scope = events action v scope := by
  rw [eventsAll]
  cases apply action v scope <;> simp [eventsAll]

mutual

theorem apply_eq_applyAll_leaves : ∀ (action : Action) (v scope : Value),
    apply action v scope = applyAll action.leaves v scope
  | .chain actions, v, scope => by
    rw [apply, leaves_chain]
    exact applyAll_eq_applyAll_leaves actions v scope
  | .affix _ _ _ _, v, scope | .sum _ _, v, scope | .capitalise, v, scope
  | .valueIn _ _, v, scope | .extractIndex _ _, v, scope | .listToDict _, v, scope
  | .flat _ _ _, v, scope | .cast _, v, scope | .text _, v, scope | .default _, v, scope
  | .reserved _, v, scope => by
    rw [leaves_eq_singleton rfl, applyAll_singleton]

theorem applyAll_eq_applyAll_leaves : ∀ (actions : List Action) (v scope : Value),
    applyAll actions v scope = applyAll (leavesAll actions) v scope
  | [], v, scope => rfl
  | action :: rest, v, scope => by
    rw [leavesAll_cons, applyAll_append, ← apply_eq_applyAll_leaves action, applyAll]
    cases apply action v scope with
    | ok w => exact applyAll_eq_applyAll_leaves rest w scope
    | error e => rfl

end

mutual

theorem events_eq_eventsAll_leaves : ∀ (action : Action) (v scope : Value),
    events action v scope = eventsAll action.leaves v scope
  | .chain actions, v, scope => by
    rw [events, leaves_chain]
    exact eventsAll_eq_eventsAll_leaves actions v scope
  | .affix _ _ _ _, v, scope | .sum _ _, v, scope | .capitalise, v, scope
  | .valueIn _ _, v, scope | .extractIndex _ _, v, scope | .listToDict _, v, scope
  | .flat _ _ _, v, scope | .cast _, v, scope | .text _, v, scope | .default _, v, scope
  | .reserved _, v, scope => by
    rw [leaves_eq_singleton rfl, eventsAll_singleton]

theorem eventsAll_eq_eventsAll_leaves : ∀ (actions : List Action) (v scope : Value),
    eventsAll actions v scope = eventsAll (leavesAll actions) v scope
  | [], v, scope => rfl
  | action :: rest, v, scope => by
    rw [leavesAll_cons, eventsAll_append, ← apply_eq_applyAll_leaves action,
      ← events_eq_eventsAll_leaves action, eventsAll]
    cases apply action v scope with
    | ok w => exact congrArg _ (eventsAll_eq_eventsAll_leaves rest w scope)
    | error e => rfl

end

end Action

namespace Rule

theorem actions_infix_actionsAll {rule : Rule} {rules : List Rule} (h : rule ∈ rules) :
    rule.actions <:+: actionsAll rules := by
  induction rules with
  | nil => cases h
  | cons first rest ih =>
    rw [actionsAll]
    rcases List.mem_cons.1 h with rfl | h
    · exact (List.prefix_append _ _).isInfix
    · exact (ih h).trans (List.suffix_append _ _).isInfix

theorem Attaches.flatten_infix {action : Action} {rule : Rule} (h : rule.Attaches action) :
    action.flatten <:+: rule.actions := by
  induction h with
  | field own =>
    rw [actions, own]
    exact List.infix_rfl
  | group mem _ ih =>
    rw [actions]
    exact ih.trans (actions_infix_actionsAll mem)
  | body source target own mem _ ih =>
    rw [actions]
    have hbody := ih.trans (actions_infix_actionsAll mem)
    exact hbody.trans (List.prefix_append _ _).isInfix
  | loop source target rules => exact (List.suffix_append _ _).isInfix

end Rule

namespace Action

/-- An action is applied leaf by leaf, in the order in which a mapping lists its parts, up to the
first leaf that fails. So it is known by its leaves, chains may be cut anywhere, and one without
leaves keeps every value. -/
theorem apply_leaves_in_turn (scope : Value) :
    (∀ action v, apply action v scope =
      action.leaves.foldlM (fun w leaf => apply leaf w scope) v) ∧
    (∀ mapping : Mapping, ∀ rule ∈ mapping.rules, ∀ action, rule.Attaches action →
      action.flatten <:+: mapping.actions) ∧
    (∀ action v e, apply action v scope = .error e ↔ ∃ before leaf after w,
      action.leaves = before ++ leaf :: after ∧
        before.foldlM (fun u part => apply part u scope) v = .ok w ∧
        apply leaf w scope = .error e) ∧
    (∀ action other : Action, action.leaves = other.leaves → ∀ v,
      apply action v scope = apply other v scope ∧
        events action v scope = events other v scope) ∧
    (∀ actions more v, apply (.chain (actions ++ more)) v scope =
      (apply (.chain actions) v scope).bind fun w => apply (.chain more) w scope) ∧
    (∀ action v, action.leaves = [] → apply action v scope = .ok v) := by
  refine ⟨fun action v => ?_, fun mapping rule hrule action hattached => ?_,
    fun action v e => ?_, fun action other hleaves v => ⟨?_, ?_⟩, fun actions more v => ?_,
    fun action v hleaves => ?_⟩
  · rw [apply_eq_applyAll_leaves, applyAll_eq_foldlM]
  · exact hattached.flatten_infix.trans (Rule.actions_infix_actionsAll hrule)
  · rw [apply_eq_applyAll_leaves, applyAll_error_iff]
    simp only [applyAll_eq_foldlM]
  · rw [apply_eq_applyAll_leaves action, hleaves, ← apply_eq_applyAll_leaves other]
  · rw [events_eq_eventsAll_leaves action, hleaves, ← events_eq_eventsAll_leaves other]
  · simp only [apply]
    exact applyAll_append actions more v scope
  · rw [apply_eq_applyAll_leaves, hleaves, applyAll]

/-- Two chains of the same leaves fail at the second of them, however they are nested; a chain of
empty chains keeps its value. -/
theorem apply_leaves_in_turn_divide :
    let nested : Action :=
      .chain [.text .trim, .chain [], .chain [.chain [.reserved .divide], .text .upper]]
    let level : Action := .chain [.text .trim, .reserved .divide, .text .upper]
    let idle : Action := .chain [.chain [], .chain [.chain []]]
    let rule : FieldRule := { source := none, target := .parse "name", action := some nested }
    let mapping : Mapping := { rules := [.group [.field rule]] }
    let name : Value := .string " ams "
    nested.leaves = level.leaves ∧
      apply nested name .empty = apply level name .empty ∧
      nested.flatten <:+: mapping.actions ∧
      apply nested name .empty = .error ⟨"divide", .notImplemented⟩ ∧
      (∃ before leaf after w, nested.leaves = before ++ leaf :: after ∧
        before.foldlM (fun u part => apply part u .empty) name = .ok w ∧
        apply leaf w .empty = .error ⟨"divide", .notImplemented⟩) ∧
      idle.leaves = [] ∧ apply idle name .empty = .ok name := by
  intro nested level idle rule mapping name
  obtain ⟨-, hlisted, hfirst, hsame, -, hidle⟩ := apply_leaves_in_turn .empty
  have hleaves : nested.leaves = level.leaves := rfl
  have hattached : (Rule.group [.field rule]).Attaches nested :=
    .group (List.mem_singleton.2 rfl) (.field rfl)
  have hfails : apply nested name .empty = .error ⟨"divide", .notImplemented⟩ := by
    decide +kernel
  exact ⟨hleaves, (hsame nested level hleaves name).1,
    hlisted mapping _ (List.mem_singleton.2 rfl) nested hattached, hfails,
    (hfirst nested name _).1 hfails, rfl, hidle idle name rfl⟩

end Action

end PayloadMapping
