import PayloadMapping.Mapping.Basic

set_option autoImplicit false

/-!
# What rules hold at any depth

The field rules, the paths and the actions of a rule and of the rules inside it. The actions that
a mapping lists are those attached to its rules, with the parts of their chains.
-/

namespace PayloadMapping

def FieldRule.paths (rule : FieldRule) : List Path := rule.source.toList ++ [rule.target]

namespace Rule

mutual

def fields : Rule → List FieldRule
  | .field rule => [rule]
  | .group rules => fieldsAll rules
  | .loop _ _ rules _ => fieldsAll rules

def fieldsAll : List Rule → List FieldRule
  | [] => []
  | rule :: rest => fields rule ++ fieldsAll rest

end

mutual

def paths : Rule → List Path
  | .field rule => rule.paths
  | .group rules => pathsAll rules
  | .loop source target rules _ => source :: target :: pathsAll rules

def pathsAll : List Rule → List Path
  | [] => []
  | rule :: rest => paths rule ++ pathsAll rest

end

theorem forall_mem_paths_loop {p : Path → Prop} {source target : Path} {rules : List Rule}
    {action : Option Action} : (∀ path ∈ (loop source target rules action).paths, p path) ↔
      p source ∧ p target ∧ ∀ path ∈ pathsAll rules, p path := by
  rw [paths, List.forall_mem_cons, List.forall_mem_cons]

/-- The action is that of the rule or of a rule inside it. -/
inductive Attaches (action : Action) : Rule → Prop
  | field {rule : FieldRule} (own : rule.action = some action) : Attaches action (.field rule)
  | group {rules : List Rule} {inner : Rule} (mem : inner ∈ rules)
      (attaches : Attaches action inner) : Attaches action (.group rules)
  | body (source target : Path) {rules : List Rule} (own : Option Action) {inner : Rule}
      (mem : inner ∈ rules) (attaches : Attaches action inner) :
      Attaches action (.loop source target rules own)
  | loop (source target : Path) (rules : List Rule) :
      Attaches action (.loop source target rules (some action))

mutual

theorem mem_actions_iff (part : Action) : ∀ rule : Rule,
    part ∈ rule.actions ↔ ∃ action, rule.Attaches action ∧ part ∈ action.flatten
  | .field rule => by
    rw [actions]
    constructor
    · intro h
      cases hown : rule.action with
      | none => simp [hown] at h
      | some action =>
        rw [hown] at h
        exact ⟨action, .field hown, h⟩
    · rintro ⟨action, ⟨hown⟩, hpart⟩
      rw [hown]
      exact hpart
  | .group rules => by
    rw [actions, mem_actionsAll_iff part rules]
    constructor
    · rintro ⟨inner, hinner, action, hattached, hpart⟩
      exact ⟨action, .group hinner hattached, hpart⟩
    · rintro ⟨action, hattached, hpart⟩
      cases hattached with
      | group hinner hattached => exact ⟨_, hinner, action, hattached, hpart⟩
  | .loop source target rules own => by
    rw [actions, List.mem_append, mem_actionsAll_iff part rules]
    constructor
    · rintro (⟨inner, hinner, action, hattached, hpart⟩ | hpart)
      · exact ⟨action, .body source target own hinner hattached, hpart⟩
      · cases own with
        | none => cases hpart
        | some action => exact ⟨action, .loop source target rules, hpart⟩
    · rintro ⟨action, hattached, hpart⟩
      cases hattached with
      | body _ _ _ hinner hattached => exact .inl ⟨_, hinner, action, hattached, hpart⟩
      | loop => exact .inr hpart

theorem mem_actionsAll_iff (part : Action) : ∀ rules : List Rule,
    part ∈ actionsAll rules ↔
      ∃ rule ∈ rules, ∃ action, rule.Attaches action ∧ part ∈ action.flatten
  | [] => by simp [actionsAll]
  | rule :: rest => by
    rw [actionsAll, List.mem_append, mem_actions_iff part rule, mem_actionsAll_iff part rest]
    simp

end

end Rule

end PayloadMapping
