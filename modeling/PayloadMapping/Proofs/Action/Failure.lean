import PayloadMapping.Action.Apply

set_option autoImplicit false

/-!
# Failures of actions

An action that fails names the part of it that failed, and only a reserved entry fails because it
cannot be applied. So an action without reserved parts never fails that way, and the message of
its failure never says so.
-/

namespace PayloadMapping

/-- If it fails, it is the failure of an entry with the name, and not because that is reserved. -/
def FailsAs {α : Type} (name : String) (result : Except ActionError α) : Prop :=
  ∀ e, result = .error e → e.action = name ∧ e.fault ≠ .notImplemented

namespace FailsAs

variable {α : Type} {name : String}

theorem ok (a : α) : FailsAs name (.ok a) := fun _ h => by cases h

theorem error {fault : ActionFault} (h : fault ≠ .notImplemented) :
    FailsAs name (.error ⟨name, fault⟩ : Except ActionError α) := by
  intro e he
  cases he
  exact ⟨rfl, h⟩

theorem of_error {β : Type} {result : Except ActionError α} {e : ActionError}
    (h : FailsAs name result) (he : result = .error e) :
    FailsAs name (.error e : Except ActionError β) := by
  intro e' he'
  cases he'
  exact h e he

theorem unfit (expected : String) (v : Value) :
    FailsAs name (Action.unfit name expected v : Except ActionError α) :=
  error (by simp)

end FailsAs

namespace Action

theorem ofValue_failsAs (name : String) (v : Value) : FailsAs name (Quantity.ofValue name v) := by
  unfold Quantity.ofValue
  split
  · exact .ok _
  · split
    · exact .ok _
    · exact .error (by simp)
  · exact .error (by simp)

theorem lookUpTexts_failsAs (name : String) (scope : Value) (paths : List Path) :
    FailsAs name (lookUpTexts name scope paths) := by
  induction paths with
  | nil => exact .ok []
  | cons path rest ih =>
    rw [lookUpTexts]
    split
    · exact .error (by simp)
    · split
      · exact .ok _
      · rename_i e he
        exact ih.of_error he

theorem addPart_failsAs (side : Side) (part : String) (meaning : PartMeaning)
    (separator : Option String) (v scope : Value) :
    FailsAs (name (.affix side part meaning separator))
      (addPart side part meaning separator v scope) := by
  have haddition : ∀ action joint, FailsAs action (addition action part meaning joint scope) := by
    intro action joint
    unfold addition
    split
    · exact .ok _
    · split
      · exact .ok _
      · rename_i e he
        exact (lookUpTexts_failsAs action scope _).of_error he
  unfold addPart
  split
  · exact .unfit _ v
  · dsimp only
    split
    · rename_i e he
      exact (haddition _ _).of_error he
    · split
      · exact .ok _
      · exact .ok _

theorem addAmounts_failsAs (total : Total) (values : List Value) :
    FailsAs sumName (addAmounts total values) := by
  induction values generalizing total with
  | nil => exact .ok total
  | cons v rest ih =>
    rw [addAmounts]
    split
    · exact ih _
    · rename_i e he
      exact (ofValue_failsAs sumName v).of_error he

theorem addLists_failsAs (key : String) (scope : Value) (total : Total) (paths : List Path) :
    FailsAs sumName (addLists key scope total paths) := by
  induction paths generalizing total with
  | nil => exact .ok total
  | cons path rest ih =>
    rw [addLists]
    split
    · split
      · exact ih _
      · rename_i e he
        exact (addAmounts_failsAs total _).of_error he
    · exact ih total
    · exact ih total
    · exact .unfit _ _

theorem sumField_failsAs (lists key : String) (scope : Value) :
    FailsAs sumName (sumField lists key scope) := by
  unfold sumField
  split
  · exact .ok _
  · rename_i e he
    exact (addLists_failsAs key scope .zero _).of_error he

theorem extract_failsAs (index : Int) (v : Value) :
    FailsAs "extract_index_data" (extract index v) := by
  unfold extract
  split
  · split
    · exact .ok _
    · exact .error (by simp)
  · exact .unfit _ v

theorem keyRecords_failsAs (key : String) (v : Value) :
    FailsAs "list_to_dict" (keyRecords key v) := by
  unfold keyRecords
  split
  · exact .ok _
  · exact .unfit _ v

theorem pieces_failsAs (strategy : FlatStrategy) (key : String) (items : List Value) :
    FailsAs "flat" (pieces strategy key items) := by
  have hpiece : ∀ item, FailsAs "flat" (piece strategy key item) := by
    intro item
    unfold piece
    split
    · exact .ok _
    · exact .unfit _ _
    · exact .ok _
    · split
      · exact .ok _
      · exact .ok _
      · exact .ok _
      · exact .unfit _ _
    · exact .unfit _ _
    · exact .unfit _ _
  induction items with
  | nil => exact .ok []
  | cons item rest ih =>
    rw [pieces]
    split
    · rename_i e he
      exact (hpiece item).of_error he
    · split
      · exact .ok _
      · rename_i e he
        exact ih.of_error he

theorem flattenList_failsAs (strategy : FlatStrategy) (key join : Option String) (v : Value) :
    FailsAs "flat" (flattenList strategy key join v) := by
  unfold flattenList
  split
  · split
    · exact .error (by simp)
    · split
      · exact .ok _
      · rename_i e he
        exact (pieces_failsAs strategy _ _).of_error he
  · exact .unfit _ v

theorem castInt_failsAs (v : Value) : FailsAs castName (castInt v) := by
  have hread := ofValue_failsAs castName v
  unfold castInt
  split
  · exact .ok _
  · exact .ok _
  -- numbers and texts are read in the same way
  iterate 2
    split
    · rename_i e he
      exact hread.of_error he
    · exact .ok _
    · split
      · exact .ok _
      · exact .error (by simp)
  · exact .unfit _ v

theorem castFloat_failsAs (v : Value) : FailsAs castName (castFloat v) := by
  have hread := ofValue_failsAs castName v
  unfold castFloat
  split
  · exact .ok _
  iterate 2
    split
    · exact .ok _
    · rename_i e he
      exact hread.of_error he
  · exact .unfit _ v

theorem convert_failsAs (target : CastTarget) (v : Value) :
    FailsAs castName (convert target v) := by
  cases target with
  | int => exact castInt_failsAs v
  | float => exact castFloat_failsAs v
  | str =>
    change FailsAs castName (castText v)
    unfold castText
    split
    · exact .unfit _ _
    · exact .ok _
  | list =>
    change FailsAs castName (castList v)
    unfold castList
    split
    · exact .unfit _ _
    · exact .ok _
    · exact .ok _
    · exact .ok _
  | bool => exact .ok _

theorem changeText_failsAs (change : TextChange) (v : Value) :
    FailsAs (name (.text change)) (changeText change v) := by
  unfold changeText
  split
  · exact .ok _
  · split
    · exact .ok _
    · exact .unfit _ v

/-- The failure names one of the actions, and is for want of an implementation only if that one
is reserved. -/
def FailureOf (actions : List Action) (e : ActionError) : Prop :=
  ∃ part ∈ actions, e.action = part.name ∧
    (e.fault = .notImplemented → ∃ entry, part = .reserved entry)

theorem FailureOf.of_failsAs {action : Action} {result : Except ActionError Value}
    {e : ActionError} (h : FailsAs action.name result) (he : result = .error e) :
    FailureOf [action] e := by
  obtain ⟨hname, hfault⟩ := h e he
  exact ⟨action, List.mem_singleton.2 rfl, hname, fun hnot => absurd hnot hfault⟩

mutual

theorem apply_failureOf : ∀ (action : Action) (v scope : Value) (e : ActionError),
    action.apply v scope = .error e → FailureOf action.flatten e
  | .affix side part meaning separator, v, scope, e, h =>
    .of_failsAs (addPart_failsAs side part meaning separator v scope) h
  | .sum lists key, v, scope, e, h => .of_failsAs (sumField_failsAs lists key scope) h
  | .capitalise, v, scope, e, h => by cases h
  | .valueIn values lists, v, scope, e, h => by cases h
  | .extractIndex index inRange, v, scope, e, h => .of_failsAs (extract_failsAs index v) h
  | .listToDict key, v, scope, e, h => .of_failsAs (keyRecords_failsAs key v) h
  | .flat strategy key join, v, scope, e, h =>
    .of_failsAs (flattenList_failsAs strategy key join v) h
  | .cast target, v, scope, e, h => .of_failsAs (convert_failsAs target v) h
  | .text change, v, scope, e, h => .of_failsAs (changeText_failsAs change v) h
  | .default fallback, v, scope, e, h => by cases h
  | .chain actions, v, scope, e, h => by
    rw [apply] at h
    obtain ⟨part, hpart, hfailure⟩ := applyAll_failureOf actions v scope e h
    exact ⟨part, List.mem_cons_of_mem _ hpart, hfailure⟩
  | .reserved entry, v, scope, e, h => by
    rw [apply] at h
    cases h
    exact ⟨.reserved entry, List.mem_singleton.2 rfl, rfl, fun _ => ⟨entry, rfl⟩⟩

theorem applyAll_failureOf : ∀ (actions : List Action) (v scope : Value) (e : ActionError),
    applyAll actions v scope = .error e → FailureOf (flattenAll actions) e
  | [], v, scope, e, h => by cases h
  | action :: rest, v, scope, e, h => by
    rw [applyAll] at h
    split at h
    · rename_i w _
      obtain ⟨part, hpart, hfailure⟩ := applyAll_failureOf rest w scope e h
      exact ⟨part, List.mem_append_right _ hpart, hfailure⟩
    · rename_i e' he
      cases h
      obtain ⟨part, hpart, hfailure⟩ := apply_failureOf action v scope e he
      exact ⟨part, List.mem_append_left _ hpart, hfailure⟩

end

mutual

theorem isImplemented_iff : ∀ action : Action,
    action.isImplemented = true ↔ ∀ entry, .reserved entry ∉ action.flatten
  | .chain actions => by
    rw [isImplemented, allImplemented_iff actions]
    simp [flatten]
  | .reserved entry => by simp [isImplemented, flatten]
  | .affix _ _ _ _ | .sum _ _ | .capitalise | .valueIn _ _ | .extractIndex _ _ | .listToDict _
  | .flat _ _ _ | .cast _ | .text _ | .default _ => by simp [isImplemented, flatten]

theorem allImplemented_iff : ∀ actions : List Action,
    allImplemented actions = true ↔ ∀ entry, .reserved entry ∉ flattenAll actions
  | [] => by simp [allImplemented, flattenAll]
  | action :: rest => by
    rw [allImplemented, Bool.and_eq_true, isImplemented_iff action, allImplemented_iff rest]
    simp [flattenAll, forall_and]

end

theorem fault_ne_of_isImplemented {action : Action} {v scope : Value} {e : ActionError}
    (himplemented : action.isImplemented = true) (h : action.apply v scope = .error e) :
    e.fault ≠ .notImplemented := by
  intro hfault
  obtain ⟨part, hpart, _, hreserved⟩ := apply_failureOf action v scope e h
  obtain ⟨entry, rfl⟩ := hreserved hfault
  exact (isImplemented_iff action).1 himplemented entry hpart

end Action

namespace ActionError

theorem name_take_two (entry : Entry) :
    entry.name.toList.take 2 ≠ ['a', 'c'] ∧ 2 ≤ entry.name.toList.length := by
  cases entry <;> decide

/-- The message of a failure tells whether an action is reserved. -/
theorem message_ne_notImplemented {e : ActionError} {entry : Entry} (hname : e.action = entry.name)
    (hfault : e.fault ≠ .notImplemented) (name : String) :
    e.message ≠ (⟨name, .notImplemented⟩ : ActionError).message := by
  obtain ⟨hhead, hlength⟩ := name_take_two entry
  have hbegins : ∃ rest, e.message.toList = entry.name.toList ++ rest := by
    unfold message
    rw [hname]
    split
    · contradiction
    all_goals simp only [String.toList_append, List.append_assoc]; exact ⟨_, rfl⟩
  obtain ⟨rest, hrest⟩ := hbegins
  intro h
  have htexts := congrArg (fun text => text.toList.take 2) h
  rw [hrest, List.take_append_of_le_length hlength] at htexts
  have hreserved : (⟨name, .notImplemented⟩ : ActionError).message.toList.take 2 = ['a', 'c'] := by
    unfold message
    simp [String.toList_append]
  exact hhead (htexts.trans hreserved)

end ActionError

end PayloadMapping
