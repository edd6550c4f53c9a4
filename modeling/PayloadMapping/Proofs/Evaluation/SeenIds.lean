import PayloadMapping.Engine.Operation
import PayloadMapping.Proofs.Evaluation.Ids
import PayloadMapping.Proofs.Evaluation.Kept
import PayloadMapping.Proofs.Value.Keys

set_option autoImplicit false

/-!
# Ids in the order in which they were seen

A context holds its ids twice: as a list, and as the set of their texts. Whatever is done with a
context, the two agree, and the list has each id that was recorded since the last reset once,
where it came first. The visits of the runs say which ids these are.
-/

namespace PayloadMapping

namespace Context

def firsts (ids : List Value) : List Value := (ids.filter (· ≠ .null)).eraseDups

theorem mem_firsts_iff {ids : List Value} {id : Value} :
    id ∈ firsts ids ↔ id ∈ ids ∧ id ≠ .null := by
  rw [firsts, List.mem_eraseDups, List.mem_filter, decide_eq_true_iff]

theorem firsts_append_singleton (ids : List Value) (id : Value) :
    firsts (ids ++ [id]) = if id ≠ .null ∧ id ∉ ids then firsts ids ++ [id] else firsts ids := by
  unfold firsts
  rw [List.filter_append, List.eraseDups_append]
  by_cases hnull : id = .null
  · simp [hnull, List.removeAll]
  · by_cases hseen : id ∈ ids
    · simp [hnull, hseen, List.removeAll]
    · simp [hnull, hseen, List.removeAll, List.eraseDups_cons]

theorem nodup_firsts (ids : List Value) : (firsts ids).Nodup := by
  induction ids using List.reverseRecOn with
  | nil => exact List.nodup_nil
  | append_singleton ids id ih =>
    rw [firsts_append_singleton]
    split
    · rename_i hnew
      have hdisjoint : id ∉ firsts ids := fun hmem => hnew.2 (mem_firsts_iff.1 hmem).1
      exact List.nodup_append_comm.2 (List.nodup_cons.2 ⟨hdisjoint, ih⟩)
    · exact ih

/-- The context has seen these ids: its list has those that count in the order in which they
first occur, and its texts are theirs. -/
structure HasSeen (context : Context) (ids : List Value) : Prop where
  uniqueIds : context.uniqueIds = firsts ids
  seenTexts : ∀ text, text ∈ context.seenTexts ↔ ∃ id ∈ context.uniqueIds, id.compact = text

namespace HasSeen

variable {context : Context} {ids : List Value}

theorem empty : HasSeen .empty [] := ⟨rfl, by simp [Context.empty]⟩

theorem reset (context : Context) : HasSeen context.reset [] := ⟨rfl, by simp [Context.reset]⟩

theorem compact_mem_iff (h : HasSeen context ids) (id : Value) :
    id.compact ∈ context.seenTexts ↔ id ∈ context.uniqueIds := by
  rw [h.seenTexts]
  constructor
  · rintro ⟨other, hother, htext⟩
    exact Value.compact_injective htext ▸ hother
  · exact fun hid => ⟨id, hid, rfl⟩

theorem isNewId_iff (h : HasSeen context ids) (id : Value) :
    context.isNewId id = true ↔ id ≠ .null ∧ id ∉ ids := by
  rw [Context.isNewId_iff, h.compact_mem_iff, h.uniqueIds, mem_firsts_iff]
  tauto

theorem recordId (h : HasSeen context ids) (id : Value) :
    HasSeen (context.recordId id) (ids ++ [id]) := by
  by_cases hnew : context.isNewId id = true
  · rw [recordId_of_new hnew]
    refine ⟨?_, fun text => ?_⟩
    · rw [firsts_append_singleton, if_pos ((h.isNewId_iff id).1 hnew), h.uniqueIds]
    · simp only [List.mem_cons, List.mem_append, h.seenTexts, List.not_mem_nil, or_false]
      constructor
      · rintro (rfl | ⟨other, hother, rfl⟩)
        · exact ⟨id, .inr rfl, rfl⟩
        · exact ⟨other, .inl hother, rfl⟩
      · rintro ⟨other, hother | rfl, rfl⟩
        · exact .inr ⟨other, hother, rfl⟩
        · exact .inl rfl
  · rw [recordId_of_not_new hnew]
    refine ⟨?_, h.seenTexts⟩
    rw [firsts_append_singleton, if_neg (mt (h.isNewId_iff id).2 hnew), h.uniqueIds]

theorem of_ids_eq {other : Context} (h : HasSeen context ids)
    (hids : other.uniqueIds = context.uniqueIds) (htexts : other.seenTexts = context.seenTexts) :
    HasSeen other ids :=
  ⟨hids.trans h.uniqueIds, by rw [hids, htexts]; exact h.seenTexts⟩

end HasSeen

end Context

namespace Session

open Context (HasSeen)

theorem hasSeen_after {session : Session} {ids : List Value} (changes : List Change)
    (h : HasSeen session.context ids) :
    HasSeen (session.after changes).context (ids ++ changes.filterMap Change.id?) := by
  induction changes generalizing session ids with
  | nil => simpa using h
  | cons change changes ih =>
    cases change with
    | recordId target id =>
      have hrecorded : HasSeen (Change.apply session (.recordId target id)).context (ids ++ [id]) :=
        h.recordId id
      simpa [List.filterMap_cons, Change.id?] using ih hrecorded
    | report events => exact ih h
    | note event diagnostic =>
      exact ih (h.of_ids_eq rfl rfl)
    | remember key value =>
      exact ih (h.of_ids_eq (Context.remember_uniqueIds _ _ _) (Context.remember_seenTexts _ _ _))

end Session

namespace Engine

open Context (HasSeen)

theorem hasSeen_ran {visit : Visit} {ids : List Value} (engine : Engine)
    (h : HasSeen visit.session.context ids) :
    HasSeen (visit.ran engine).2.context (ids ++ (visit.recorded? engine).toList) := by
  unfold Visit.recorded?
  rcases Visit.ran_cases engine visit with ⟨value, s, hvalue, hquiet, hran⟩ | ⟨hnone, hquiet, _⟩
  · have hkept := Session.hasSeen_after (visit.site.rule.keeps value)
      (h.of_ids_eq hquiet.uniqueIds hquiet.seenTexts)
    rw [FieldRule.filterMap_keeps] at hkept
    rw [hran, hvalue]
    by_cases hunique : visit.site.rule.isUniqueId = true
    · rw [if_pos hunique] at hkept ⊢
      exact hkept
    · rw [if_neg hunique] at hkept ⊢
      exact hkept
  · rw [hnone, ite_self, Option.toList_none, List.append_nil]
    exact h.of_ids_eq hquiet.uniqueIds hquiet.seenTexts

theorem Leads.hasSeen {engine : Engine} {s t : Session} {visits : List Visit} {ids : List Value}
    (h : Leads engine s visits t) (hseen : HasSeen s.context ids) :
    HasSeen t.context (ids ++ visits.filterMap (Visit.recorded? engine)) := by
  induction visits generalizing s ids with
  | nil =>
    have hquiet : s.Quiet t := h
    simpa using hseen.of_ids_eq hquiet.uniqueIds hquiet.seenTexts
  | cons visit rest ih =>
    have hbegun := hseen.of_ids_eq h.1.uniqueIds h.1.seenTexts
    have hrest := ih h.2.2 (hasSeen_ran engine hbegun)
    rw [List.append_assoc] at hrest
    cases hrecorded : visit.recorded? engine with
    | none => simpa [List.filterMap_cons, hrecorded] using hrest
    | some id => simpa [List.filterMap_cons, hrecorded] using hrest

end Engine

namespace Operation

def recorded (context : Context) : Operation → List Value
  | .evaluate engine mapping source =>
    (engine.visitsOf mapping source { context := context }).filterMap (Visit.recorded? engine)
  | .recordId id => [id]
  | .remember _ _ | .lookUp _ | .clearCache | .addDiagnostic _ | .reset => []

/-- The ids recorded by operations one after another since the last reset, where `ids` are those
from before. -/
def recordedSinceReset (context : Context) (ids : List Value) : List Operation → List Value
  | [] => ids
  | .reset :: rest => recordedSinceReset context.reset [] rest
  | operation :: rest =>
    recordedSinceReset (context.perform operation) (ids ++ operation.recorded context) rest

end Operation

namespace Context

open Operation (recordedSinceReset)

variable {context : Context} {ids : List Value}

theorem HasSeen.perform (h : HasSeen context ids) (operation : Operation)
    (hkeeps : operation ≠ .reset) :
    HasSeen (context.perform operation) (ids ++ operation.recorded context) := by
  cases operation with
  | evaluate engine mapping source =>
    have hleads := (engine.run_covers mapping source).leads { context := context }
    exact hleads.hasSeen h
  | recordId id => exact h.recordId id
  | remember key value =>
    rw [Operation.recorded, List.append_nil]
    exact h.of_ids_eq (remember_uniqueIds _ _ _) (remember_seenTexts _ _ _)
  | lookUp key => rwa [Operation.recorded, List.append_nil]
  | clearCache | addDiagnostic _ =>
    rw [Operation.recorded, List.append_nil]
    exact h.of_ids_eq rfl rfl
  | reset => exact absurd rfl hkeeps

theorem HasSeen.performAll (h : HasSeen context ids) (operations : List Operation) :
    HasSeen (context.performAll operations) (recordedSinceReset context ids operations) := by
  unfold Context.performAll
  induction operations generalizing context ids with
  | nil => exact h
  | cons operation rest ih =>
    -- a reset begins a new list, all else adds to the one there is
    by_cases hreset : operation = .reset
    · subst hreset
      exact ih (HasSeen.reset context)
    · have hrest := ih (h.perform operation hreset)
      cases operation with
      | reset => exact absurd rfl hreset
      | evaluate _ _ _ | remember _ _ | lookUp _ | clearCache | recordId _ | addDiagnostic _ =>
        exact hrest

end Context

/-- After any operations on a new context its texts are those of its ids, no id is null or there
twice, and the ids are those recorded since the last reset, except null, each where it came
first. Ids are the same if they are equal as values, for which the order of fields does not
count. -/
theorem seen_ids_are_first_occurrences (operations : List Operation) :
    let context := Context.empty.performAll operations
    (∀ text, text ∈ context.seenTexts ↔ ∃ id ∈ context.uniqueIds, id.compact = text) ∧
    .null ∉ context.uniqueIds ∧ context.uniqueIds.Nodup ∧
    context.uniqueIds =
      ((Operation.recordedSinceReset .empty [] operations).filter (· ≠ .null)).eraseDups ∧
    (∀ id other : Value, id.compact = other.compact ↔ id = other) ∧
    ∀ fields others : Fields Value, fields.Perm others → (Fields.keys fields).Nodup →
      Value.object (Fields.sorted fields) = .object (Fields.sorted others) := by
  intro context
  have hseen : Context.HasSeen context _ := Context.HasSeen.empty.performAll operations
  refine ⟨hseen.seenTexts, ?_, ?_, hseen.uniqueIds, fun id other => ?_, ?_⟩
  · rw [hseen.uniqueIds, Context.mem_firsts_iff]
    exact fun h => h.2 rfl
  · rw [hseen.uniqueIds]
    exact Context.nodup_firsts _
  · exact ⟨fun h => Value.compact_injective h, fun h => congrArg Value.compact h⟩
  · intro fields others hperm hkeys
    rw [Fields.sorted_perm hperm hkeys]

/-- A number and its digits are two ids; null is none, and the order of fields does not count. -/
theorem seen_ids_are_first_occurrences_digits :
    let number : Value := .number (.whole 1 (by decide))
    let operations : List Operation :=
      [.recordId .null, .reset, .recordId number, .recordId (.string "1"), .recordId number]
    let fields := [("to", number), ("from", Value.null)]
    (Context.empty.performAll operations).uniqueIds = [number, .string "1"] ∧
      fields.Perm fields.reverse ∧ (Fields.keys fields).Nodup ∧
      Value.object (Fields.sorted fields) = .object (Fields.sorted fields.reverse) := by
  intro number operations fields
  have hperm : fields.Perm fields.reverse := fields.reverse_perm.symm
  have hkeys : (Fields.keys fields).Nodup := by decide
  obtain ⟨_, _, _, hids, _, hobject⟩ := seen_ids_are_first_occurrences operations
  have hrecorded : Operation.recordedSinceReset .empty [] operations =
      [number, .string "1", number] := rfl
  refine ⟨?_, hperm, hkeys, hobject _ _ hperm hkeys⟩
  rw [hids, hrecorded]
  decide

end PayloadMapping
