import PayloadMapping.Command.Run
import PayloadMapping.Proofs.Action.Failure
import PayloadMapping.Proofs.Evaluation.Bounds
import PayloadMapping.Proofs.Value.Keys

set_option autoImplicit false

/-!
# What checking a mapping says about its runs

`check` lists the reserved actions that a mapping uses, those in chains included. If it lists none,
then no run of the mapping, for any payload and by any engine, meets an action that cannot be
applied.
-/

namespace PayloadMapping

namespace Command

theorem sortedNames_eq_nil_iff (names : List String) : sortedNames names = [] ↔ names = [] := by
  have hmem : ∀ name, name ∈ sortedNames names ↔ name ∈ names := by
    intro name
    unfold sortedNames Fields.sorted
    rw [Fields.mem_keys_merge]
    simp [Fields.keys, Function.comp_def]
  rw [List.eq_nil_iff_forall_not_mem, List.eq_nil_iff_forall_not_mem]
  exact forall_congr' fun name => not_congr (hmem name)

theorem unapplicable_iff (action : Action) :
    (action.entry ≠ .chain && !action.isImplemented) = true ↔
      ∃ entry, action = .reserved entry := by
  cases action with
  | affix side part meaning separator => cases side <;> simp [Action.entry, Action.isImplemented]
  | text change => cases change <;> simp [Action.entry, Action.isImplemented]
  | reserved entry => cases entry <;> simp [Action.entry, Action.isImplemented]
  | sum _ _ | capitalise | valueIn _ _ | extractIndex _ _ | listToDict _ | flat _ _ _ | cast _
  | default _ | chain _ => simp [Action.entry, Action.isImplemented]

theorem unimplementedNames_eq_nil_iff (mapping : Mapping) :
    unimplementedNames mapping = [] ↔ ∀ entry, .reserved entry ∉ mapping.actions := by
  unfold unimplementedNames
  rw [sortedNames_eq_nil_iff, List.map_eq_nil_iff, List.filter_eq_nil_iff]
  constructor
  · intro h entry hmem
    exact h _ hmem ((unapplicable_iff _).2 ⟨entry, rfl⟩)
  · intro h action hmem hnot
    obtain ⟨entry, rfl⟩ := (unapplicable_iff action).1 hnot
    exact h entry hmem

/-- The parts of the actions at the rules are the actions that are listed. -/
theorem unimplementedNames_eq_nil_iff_attached (mapping : Mapping) :
    unimplementedNames mapping = [] ↔
      ∀ rule ∈ mapping.rules, ∀ action, rule.Attaches action → action.isImplemented = true := by
  have hlisted : ∀ part, part ∈ mapping.actions ↔
      ∃ rule ∈ mapping.rules, ∃ action, rule.Attaches action ∧ part ∈ action.flatten :=
    fun part => Rule.mem_actionsAll_iff part mapping.rules
  rw [unimplementedNames_eq_nil_iff]
  constructor
  · intro h rule hrule action hattached
    rw [Action.isImplemented_iff]
    intro entry hentry
    exact h entry ((hlisted _).2 ⟨rule, hrule, action, hattached, hentry⟩)
  · intro h entry hentry
    obtain ⟨rule, hrule, action, hattached, hpart⟩ := (hlisted _).1 hentry
    exact (Action.isImplemented_iff action).1 (h rule hrule action hattached) entry hpart

/-- The failure comes from applying an action at one of the rules, and not because that action or
a part of it is reserved, which its message would say. -/
def AppliedFailure (rules : List Rule) (e : ActionError) : Prop :=
  (∃ rule ∈ rules, ∃ action, rule.Attaches action ∧ ∃ v scope, action.apply v scope = .error e) ∧
    e.fault ≠ .notImplemented ∧
    ∀ name, e.message ≠ (⟨name, .notImplemented⟩ : ActionError).message

theorem appliedFailure_of_implemented {rules : List Rule}
    (h : ∀ rule ∈ rules, ∀ action, rule.Attaches action → action.isImplemented = true)
    {rule : Rule} (hrule : rule ∈ rules) {action : Action} (hattached : rule.Attaches action)
    {v scope : Value} {e : ActionError} (he : action.apply v scope = .error e) :
    AppliedFailure rules e := by
  have hfault : e.fault ≠ .notImplemented :=
    Action.fault_ne_of_isImplemented (h rule hrule action hattached) he
  obtain ⟨part, _, hname, _⟩ := Action.apply_failureOf action v scope e he
  exact ⟨⟨rule, hrule, action, hattached, v, scope, he⟩, hfault,
    ActionError.message_ne_notImplemented hname hfault⟩

/-- `check` succeeds on a mapping that loads exactly if it names no reserved action, and that is so
exactly if all actions at its rules, at any depth, can be applied. Then none of these actions
fails because it is reserved, whatever it is applied to; and a run that ends with the failure of
an action or notes one has it from another failure of one of these actions. -/
theorem check_gates_runs (mapping : Mapping) :
    let names := unimplementedNames mapping
    (∀ files path, loadMapping files path = .ok mapping →
      ((check files path).exit = 0 ↔ names = [])) ∧
    (names = [] ↔
      ∀ rule ∈ mapping.rules, ∀ action, rule.Attaches action → action.isImplemented = true) ∧
    (names = [] →
      (∀ rule ∈ mapping.rules, ∀ action, rule.Attaches action → ∀ v scope e,
        action.apply v scope = .error e → AppliedFailure mapping.rules e) ∧
      ∀ (engine : Engine) (source : Value) (session : Session),
        let ran := engine.run mapping source session
        (∀ target e, ran.1 = .error (.action target e) → AppliedFailure mapping.rules e) ∧
        ∃ added, ran.2.context.diagnostics = session.context.diagnostics ++ added ∧
          ∀ d ∈ added, d.kind = .actionFailed →
            ∃ e, d.message = e.message ∧ AppliedFailure mapping.rules e) := by
  intro names
  have hgate := unimplementedNames_eq_nil_iff_attached mapping
  refine ⟨fun files path hload => ?_, hgate, fun hnone => ?_⟩
  · unfold check
    rw [hload]
    dsimp only
    split
    · rename_i hnone
      exact iff_of_true rfl hnone
    · rename_i hsome
      exact iff_of_false (by simp) hsome
  · have himplemented := hgate.1 hnone
    have happlied : ∀ rule ∈ mapping.rules, ∀ action, rule.Attaches action → ∀ v scope e,
        action.apply v scope = .error e → AppliedFailure mapping.rules e :=
      fun rule hrule action hattached v scope e he =>
        appliedFailure_of_implemented himplemented hrule hattached he
    refine ⟨happlied, fun engine source session => ?_⟩
    -- only failures of actions and their notes are bounded; a provider may end a run as well
    let permits : Eval.Permits :=
      { ends := fun e => ∀ target failure, e = .action target failure →
          AppliedFailure mapping.rules failure
        notes := fun d => d.kind = .actionFailed →
          ∃ e, d.message = e.message ∧ AppliedFailure mapping.rules e }
    have hstarts : ∀ rule, permits.Starts engine rule := by
      refine fun rule => ⟨fun _ _ _ _ _ => trivial, fun _ _ _ _ _ _ _ _ target failure h => ?_⟩
      cases h
    have hacts : ∀ rule ∈ mapping.rules, ∀ action, rule.Attaches action →
        permits.Acts engine action := by
      intro rule hrule action hattached
      refine ⟨fun _ _ _ _ _ => trivial, fun _ v scope e he target target' failure h => ?_,
        fun _ v scope e he target _ => ?_⟩
      · cases h
        exact happlied rule hrule action hattached v scope e he
      · exact ⟨e, rfl, happlied rule hrule action hattached v scope e he⟩
    have hadmits : permits.Admits engine mapping.rules :=
      { allows := fun _ hacted d hkind _ hfailed => absurd (hkind ▸ hfailed) hacted
        starts := fun rule _ => hstarts rule
        acts := hacts
        records := fun _ _ _ => trivial
        remembers := fun _ _ _ => trivial }
    obtain ⟨hends, added, hadded, hnotes⟩ := Engine.run_bounded hadmits source session
    exact ⟨fun target e he => hends _ he target e rfl, added, hadded, hnotes⟩

end Command

end PayloadMapping
