import Mathlib.Data.List.Dedup
import PayloadMapping.Proofs.Evaluation.Change
import PayloadMapping.Proofs.Json.Compact

set_option autoImplicit false

/-!
# Which ids count

Ids are told apart by their compact texts, and different values have different texts. So the
ids of a list that count are its values other than null whose texts were not seen before, each
once, and in another order of the list the same ids count.
-/

namespace PayloadMapping.Context

theorem mem_unseen_iff (seen : List String) (ids : List Value) (id : Value) :
    id ∈ unseen seen ids ↔ id ∈ ids ∧ id ≠ .null ∧ id.compact ∉ seen := by
  induction ids generalizing seen with
  | nil => simp [unseen]
  | cons first rest ih =>
    by_cases hfirst : first ≠ .null ∧ first.compact ∉ seen
    · rw [unseen_cons_of_new hfirst.1 hfirst.2, List.mem_cons, List.mem_cons, ih]
      by_cases heq : id = first
      · subst heq
        simp [hfirst]
      · have hcompact : id.compact ≠ first.compact := fun h => heq (Value.compact_injective h)
        simp [heq, hcompact]
    · rw [unseen_cons_of_not_new hfirst, ih, List.mem_cons]
      by_cases heq : id = first
      · subst heq
        tauto
      · simp [heq]

theorem nodup_unseen (seen : List String) (ids : List Value) : (unseen seen ids).Nodup := by
  induction ids generalizing seen with
  | nil => exact List.nodup_nil
  | cons first rest ih =>
    by_cases hfirst : first ≠ .null ∧ first.compact ∉ seen
    · rw [unseen_cons_of_new hfirst.1 hfirst.2, List.nodup_cons]
      refine ⟨fun hmem => ?_, ih _⟩
      exact ((mem_unseen_iff _ _ _).1 hmem).2.2 List.mem_cons_self
    · rw [unseen_cons_of_not_new hfirst]
      exact ih _

theorem unseen_perm (seen : List String) {ids others : List Value} (h : ids.Perm others) :
    (unseen seen ids).Perm (unseen seen others) := by
  refine (List.perm_ext_iff_of_nodup (nodup_unseen _ _) (nodup_unseen _ _)).2 fun id => ?_
  rw [mem_unseen_iff, mem_unseen_iff, h.mem_iff]

end PayloadMapping.Context
