import PayloadMapping.Action.Apply
import PayloadMapping.Proofs.Evaluation.SeenIds

set_option autoImplicit false

/-!
# The two equalities of values

Ids are told apart by their texts, and so are equal only when they are the same value. Membership
tests compare numbers, and the two zeros of the doubles are one number. The equality of membership
tests is therefore the other one up to the signs of zeros, wherever these stand in a value.
-/

namespace PayloadMapping

namespace Double

def positiveZero (x : Double) : Double := if x.units = 0 then { x with negative := false } else x

theorem sameValue_iff (x y : Double) :
    x.sameValue y = true ↔ x.positiveZero = y.positiveZero := by
  obtain ⟨s, m, hm⟩ := x
  obtain ⟨t, n, hn⟩ := y
  simp only [sameValue, positiveZero, Bool.and_eq_true, Bool.or_eq_true, beq_iff_eq]
  by_cases hmn : m = n
  · subst hmn
    by_cases hzero : m = 0 <;> simp [hzero]
  · -- doubles of different counts stay so, as only signs are taken off
    refine iff_of_false (fun h => hmn h.1) fun h => hmn ?_
    have hunits := congrArg Double.units h
    simpa only [apply_ite Double.units, ite_self] using hunits

end Double

namespace Number

def positiveZero : Number → Number
  | .whole n h => .whole n h
  | .double x => .double x.positiveZero

theorem same_iff (m n : Number) : m.same n = true ↔ m.positiveZero = n.positiveZero := by
  cases m <;> cases n <;> simp [same, positiveZero, Double.sameValue_iff]

end Number

namespace Value

mutual

/-- The value, with the signs of its zeros taken off. -/
def positiveZeros : Value → Value
  | .number n => .number n.positiveZero
  | .array items => .array (positiveItems items)
  | .object fields => .object (positiveFields fields)
  | .null => .null
  | .bool b => .bool b
  | .string s => .string s

def positiveItems : List Value → List Value
  | [] => []
  | v :: vs => positiveZeros v :: positiveItems vs

def positiveFields : List (String × Value) → List (String × Value)
  | [] => []
  | (k, v) :: fs => (k, positiveZeros v) :: positiveFields fs

end

mutual

theorem same_iff : (v w : Value) → (v.same w = true ↔ v.positiveZeros = w.positiveZeros)
  | .null, .null => by simp [same]
  | .bool _, .bool _ | .string _, .string _ => by simp [same, positiveZeros]
  | .number m, .number n => by simp [same, positiveZeros, Number.same_iff]
  | .array a, .array b => by simp [same, positiveZeros, sameItems_iff a b]
  | .object a, .object b => by simp [same, positiveZeros, sameFields_iff a b]
  | .null, .bool _ | .null, .number _ | .null, .string _ | .null, .array _ | .null, .object _
  | .bool _, .null | .bool _, .number _ | .bool _, .string _ | .bool _, .array _
  | .bool _, .object _ | .number _, .null | .number _, .bool _ | .number _, .string _
  | .number _, .array _ | .number _, .object _ | .string _, .null | .string _, .bool _
  | .string _, .number _ | .string _, .array _ | .string _, .object _ | .array _, .null
  | .array _, .bool _ | .array _, .number _ | .array _, .string _ | .array _, .object _
  | .object _, .null | .object _, .bool _ | .object _, .number _ | .object _, .string _
  | .object _, .array _ => by simp [same, positiveZeros]

theorem sameItems_iff :
    (vs ws : List Value) → (sameItems vs ws = true ↔ positiveItems vs = positiveItems ws)
  | [], [] => by simp [sameItems]
  | [], _ :: _ | _ :: _, [] => by simp [sameItems, positiveItems]
  | v :: vs, w :: ws => by simp [sameItems, positiveItems, same_iff v w, sameItems_iff vs ws]

theorem sameFields_iff :
    (fs gs : List (String × Value)) →
      (sameFields fs gs = true ↔ positiveFields fs = positiveFields gs)
  | [], [] => by simp [sameFields]
  | [], _ :: _ | _ :: _, [] => by simp [sameFields, positiveFields]
  | (k, v) :: fs, (l, w) :: gs => by
    simp [sameFields, positiveFields, same_iff v w, sameFields_iff fs gs]

end

end Value

namespace Context

theorem isNewId_recordId_eq_false_iff (v : Value) {w : Value} (hw : w.kind ≠ .null) :
    (Context.empty.recordId v).isNewId w = false ↔ v = w := by
  have hcounts : w ≠ .null := fun h => hw (congrArg Value.kind h)
  rw [← Bool.not_eq_true, (HasSeen.empty.recordId v).isNewId_iff]
  simp [hcounts, eq_comm]

/-- No id is there twice, so those that a membership test takes for one differ in a sign. -/
theorem HasSeen.pairwise_same {context : Context} {ids : List Value} (h : HasSeen context ids) :
    context.uniqueIds.Pairwise fun id other =>
      id.same other = true → id ≠ other ∧ id.positiveZeros = other.positiveZeros := by
  rw [h.uniqueIds]
  exact (nodup_firsts ids).imp fun hne hsame => ⟨hne, (Value.same_iff _ _).1 hsame⟩

end Context

namespace Action

theorem valueIn_singleton (v scope : Value) {w : Value} (hw : w.kind ≠ .array) :
    Action.apply (.valueIn [v] none) w scope = .ok (.bool (v.same w)) := by
  cases w with
  | array items => exact absurd rfl hw
  | null | bool _ | number _ | string _ | object _ => simp [apply, members, isMember]

end Action

/-- On a new context in which one id is recorded, another is seen exactly when the two are equal,
and is a member of the set of the first exactly when they are up to the signs of zeros. So the two
questions have one answer unless the values differ in such signs alone, and ids of one context
that a membership test takes for the same do differ in such signs. -/
theorem seen_ids_and_members (v scope : Value) {w : Value} (hnull : w.kind ≠ .null)
    (harray : w.kind ≠ .array) (operations : List Operation) :
    ((Context.empty.recordId v).isNewId w = false ↔ v = w) ∧
    Action.apply (.valueIn [v] none) w scope = .ok (.bool (v.same w)) ∧
    (v.same w = true ↔ v.positiveZeros = w.positiveZeros) ∧
    (((Context.empty.recordId v).isNewId w = false ↔
        Action.apply (.valueIn [v] none) w scope = .ok (.bool true)) ↔
      (v.positiveZeros = w.positiveZeros → v = w)) ∧
    (Context.empty.performAll operations).uniqueIds.Pairwise fun id other =>
      id.same other = true → id ≠ other ∧ id.positiveZeros = other.positiveZeros := by
  have hseen := Context.isNewId_recordId_eq_false_iff v hnull
  have hmember := Action.valueIn_singleton v scope harray
  refine ⟨hseen, hmember, v.same_iff w, ?_,
    (Context.HasSeen.empty.performAll operations).pairwise_same⟩
  have hequal : v = w → v.positiveZeros = w.positiveZeros := congrArg Value.positiveZeros
  rw [hseen, hmember, Except.ok.injEq, Value.bool.injEq, v.same_iff w]
  exact ⟨fun h => h.2, fun h => ⟨hequal, h⟩⟩

/-- A whole zero and a double one, in objects with the same key, are two values either way. -/
theorem seen_ids_and_members_kinds :
    let fare (n : Number) : Value := .object [("fare", .number n)]
    let whole := fare .zero
    let double := fare (.double .zero)
    whole.kind ≠ .null ∧ whole.kind ≠ .array ∧
      (Context.empty.recordId double).isNewId whole = true ∧
      Action.apply (.valueIn [double] none) whole .null = .ok (.bool false) ∧
      (Context.empty.performAll [.recordId double, .recordId whole]).uniqueIds.Pairwise
        fun id other =>
          id.same other = true → id ≠ other ∧ id.positiveZeros = other.positiveZeros := by
  intro fare whole double
  have hnull : whole.kind ≠ .null := by decide
  have harray : whole.kind ≠ .array := by decide
  obtain ⟨hseen, hmember, -, -, hpairwise⟩ :=
    seen_ids_and_members double .null hnull harray [.recordId double, .recordId whole]
  have hdiffer : double ≠ whole := by decide
  have hnew : (Context.empty.recordId double).isNewId whole = true :=
    eq_true_of_ne_false (mt hseen.1 hdiffer)
  exact ⟨hnull, harray, hnew, hmember, hpairwise⟩

/-- The two zeros of the doubles are two ids, and the second is a member of the set of the
first. -/
theorem seen_ids_negative_zero :
    let zero : Value := .number (.double .zero)
    let negativeZero : Value := .number (.double ⟨true, 0, Double.zero.fits⟩)
    (Context.empty.recordId zero).isNewId negativeZero = true ∧
      ((Context.empty.recordId zero).recordId negativeZero).uniqueIds = [zero, negativeZero] ∧
      Action.apply (.valueIn [zero] none) negativeZero .null = .ok (.bool true) := by
  decide +kernel

end PayloadMapping
