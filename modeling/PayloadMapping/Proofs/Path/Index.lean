import PayloadMapping.Proofs.Number.Text
import PayloadMapping.Proofs.Path.Reading

set_option autoImplicit false

/-!
# Numerals as indices

A segment of decimal digits, with as many zeros in front as there may be, names a place of a list.
Below `2 ^ 64` it is the index of an item or of a place that is missing. From `2 ^ 64` on it is no
index: reading it fails as reading a name does.
-/

namespace PayloadMapping.Path

def IsNumeral (segment : String) : Prop :=
  segment ≠ "" ∧ segment.toList.all Numeral.isDigit = true

instance (segment : String) : Decidable (IsNumeral segment) := inferInstanceAs (Decidable (_ ∧ _))

def numeralValue (segment : String) : Nat := Nat.ofDigitChars 10 segment.toList 0

/-- A numeral is read without a sign to take off: it is an index if 64 bits hold it. -/
theorem index?_of_isNumeral {segment : String} (h : IsNumeral segment) :
    index? segment = if numeralValue segment < wordLimit then some (numeralValue segment)
      else none := by
  have hdigits : ∀ c ∈ segment.toList, Numeral.isDigit c = true := List.all_eq_true.1 h.2
  have hread : Numeral.natural? 10 segment.toList = some (numeralValue segment) :=
    Numeral.natural?_of_digits (by simpa using h.1) hdigits
  unfold index?
  split
  · rename_i rest hcons
    have hplus := hdigits '+' (by simp [hcons])
    exact absurd hplus (by decide)
  · simp only [hread]

theorem step_array_of_isNumeral {segment : String} (h : IsNumeral segment) (items : List Value) :
    step segment (.array items) =
      if numeralValue segment < wordLimit then
        (items[numeralValue segment]?).elim (.error .missing) .ok
      else .error (.mismatch .array) := by
  rw [step, index?_of_isNumeral h]
  by_cases hlt : numeralValue segment < wordLimit
  · simp only [if_pos hlt]
    cases items[numeralValue segment]? <;> rfl
  · simp only [if_neg hlt]

theorem index?_of_step_mismatch {segment : String} {v : Value}
    (h : step segment v = .error (.mismatch .array)) : index? segment = none := by
  cases v with
  | array items =>
    cases hindex : index? segment with
    | none => rfl
    | some i =>
      rw [step, hindex] at h
      cases hitem : items[i]? <;> simp [hitem] at h
  | object fields =>
    rw [step] at h
    cases hfield : Fields.get? segment fields <;> simp [hfield] at h
  | null | bool _ | number _ | string _ => simp [step, Value.kind] at h

/-- A numeral below `2 ^ 64` that is read where a list is gives the item at that index, or is
missing when the list is not that long; a greater one is refused as a name is. A list is the wrong
kind of value only for a segment that is no numeral below `2 ^ 64`. -/
theorem readSegments_numeral (source : Value) :
    (∀ before items segment, readSegments source before = .ok (.array items) →
      IsNumeral segment → readSegments source (before ++ [segment]) =
        if numeralValue segment < wordLimit then
          (items[numeralValue segment]?).elim
            (.error ⟨join (before ++ [segment]), segment, .missing⟩) .ok
        else .error ⟨join (before ++ [segment]), segment, .mismatch .array⟩) ∧
    ∀ path e, readSegments source path = .error e → e.obstacle = .mismatch .array →
      IsNumeral e.segment → wordLimit ≤ numeralValue e.segment := by
  refine ⟨fun before items segment hitems hnumeral => ?_, fun path e hread hobstacle hnumeral => ?_⟩
  · have hstep := step_array_of_isNumeral hnumeral items
    unfold readSegments
    rw [walk_append_of_ok (readSegments_ok_iff.1 hitems), walk, hstep]
    split_ifs
    · cases items[numeralValue segment]? <;> rfl
    · rfl
  · obtain ⟨before, after, u, _, _, hfails⟩ := walk_error_iff.1 (readSegments_error_iff.1 hread).2
    have hindex := index?_of_step_mismatch (hobstacle ▸ hfails)
    by_contra hlt
    rw [index?_of_isNumeral hnumeral, if_pos (Nat.lt_of_not_le hlt)] at hindex
    cases hindex

/-- Zeros in front do not count, however many they are; the first numeral that 64 bits do not
hold is refused. -/
theorem readSegments_numeral_legs :
    let items : List Value := [.string "out", .string "back"]
    let source : Value := .object [("legs", .array items)]
    readSegments source ["legs"] = .ok (.array items) ∧
      IsNumeral "000000000000000000000001" ∧
      readSegments source ["legs", "000000000000000000000001"] = .ok (.string "back") ∧
      IsNumeral "18446744073709551616" ∧
      readSegments source ["legs", "18446744073709551616"] =
        .error ⟨"legs.18446744073709551616", "18446744073709551616", .mismatch .array⟩ ∧
      wordLimit ≤ numeralValue "18446744073709551616" := by
  intro items source
  have hlegs : readSegments source ["legs"] = .ok (.array items) := rfl
  have hpadded : IsNumeral "000000000000000000000001" := by decide
  have hgreat : IsNumeral "18446744073709551616" := by decide
  obtain ⟨hplace, hmismatch⟩ := readSegments_numeral source
  have hrefused := hplace ["legs"] items _ hlegs hgreat
  exact ⟨hlegs, hpadded, hplace ["legs"] items _ hlegs hpadded, hgreat, hrefused,
    hmismatch _ _ hrefused rfl hgreat⟩

/-- The empty list is refused at the place `2 ^ 64` as a value of the wrong kind; the place does
not count as missing. -/
theorem readSegments_beyond_words :
    IsNumeral "18446744073709551616" ∧
      readSegments (.array []) ["18446744073709551616"] =
        .error ⟨"18446744073709551616", "18446744073709551616", .mismatch .array⟩ ∧
      readSegments (.array []) ["18446744073709551616"] ≠
        .error ⟨"18446744073709551616", "18446744073709551616", .missing⟩ := by
  have hrefused : readSegments (.array []) ["18446744073709551616"] =
      .error ⟨"18446744073709551616", "18446744073709551616", .mismatch .array⟩ := rfl
  refine ⟨by decide, hrefused, ?_⟩
  rw [hrefused]
  decide

end PayloadMapping.Path
