import PayloadMapping.Action.Apply

set_option autoImplicit false

/-!
# Items by index

An index names an item of a list from either end: from the front if it is not negative, else from
the end, which is the front of the reversed list. The one sum that this takes fits into 64 bits
with a sign whenever the index and the length do, so that words, in which sums wrap around, find
the same items.
-/

namespace PayloadMapping.Action

variable {index : Int} {length position : Nat}

theorem position?_eq_some_iff : position? index length = some position ↔
    position < length ∧ ((position : Int) = index ∨ (position : Int) = length + index) := by
  unfold position? offset
  dsimp only
  rw [Option.ite_none_right_eq_some, Option.some.injEq]
  split <;> omega

theorem exists_position?_iff : (∃ position, position? index length = some position) ↔
    -(length : Int) ≤ index ∧ index < length := by
  simp only [position?_eq_some_iff]
  constructor
  · rintro ⟨position, hposition⟩
    omega
  · intro h
    by_cases hsign : index < 0
    · exact ⟨(length + index).toNat, by omega⟩
    · exact ⟨index.toNat, by omega⟩

theorem position?_of_neg (h : index < 0) :
    position? index length = (position? (-1 - index) length).map (length - 1 - ·) := by
  ext position
  simp only [Option.map_eq_some_iff, position?_eq_some_iff]
  constructor
  · intro hposition
    exact ⟨length - 1 - position, by omega⟩
  · rintro ⟨mirrored, hmirrored, rfl⟩
    omega

theorem extract_array_ok_iff {items : List Value} {v : Value} :
    extract index (.array items) = .ok v ↔
      ∃ position, position? index items.length = some position ∧ items[position]? = some v := by
  rw [extract, ← Option.bind_eq_some_iff]
  cases (position? index items.length).bind fun position => items[position]? <;> simp

theorem extract_array_of_position {items : List Value} (h : position < items.length)
    (hposition : position? index items.length = some position) :
    extract index (.array items) = .ok items[position] :=
  extract_array_ok_iff.2 ⟨position, hposition, List.getElem?_eq_getElem h⟩

theorem extract_array_of_none {items : List Value} (h : position? index items.length = none) :
    extract index (.array items) =
      .error ⟨"extract_index_data", .indexOutOfRange index items.length⟩ := by
  rw [extract, h, Option.bind_none]

theorem exists_extract_array_iff {items : List Value} :
    (∃ v, extract index (.array items) = .ok v) ↔
      -(items.length : Int) ≤ index ∧ index < items.length := by
  rw [← exists_position?_iff]
  constructor
  · rintro ⟨v, hv⟩
    obtain ⟨position, hposition, -⟩ := extract_array_ok_iff.1 hv
    exact ⟨position, hposition⟩
  · rintro ⟨position, hposition⟩
    exact ⟨_, extract_array_of_position (position?_eq_some_iff.1 hposition).1 hposition⟩

theorem extract_reverse_ok_iff {items : List Value} {v : Value} (h : index < 0) :
    extract index (.array items) = .ok v ↔
      extract (-1 - index) (.array items.reverse) = .ok v := by
  simp only [extract_array_ok_iff, position?_of_neg h, Option.map_eq_some_iff,
    List.length_reverse]
  constructor
  · rintro ⟨_, ⟨mirrored, hmirrored, rfl⟩, hv⟩
    refine ⟨mirrored, hmirrored, ?_⟩
    rw [List.getElem?_reverse (position?_eq_some_iff.1 hmirrored).1, hv]
  · rintro ⟨mirrored, hmirrored, hv⟩
    rw [List.getElem?_reverse (position?_eq_some_iff.1 hmirrored).1] at hv
    exact ⟨_, ⟨mirrored, hmirrored, rfl⟩, hv⟩

/-! ## Offsets in words -/

def signedLength? (length : Nat) : Option Int64 :=
  if InSignedRange length then some (.ofNat length) else none

def unsigned? (n : Int64) : Option UInt64 :=
  if 0 ≤ n then some n.toUInt64 else none

/-- The offset of an index, worked out in words. The sum of two words wraps around. -/
def wordOffset? (index : Int64) (length : Nat) : Option UInt64 :=
  if index < 0 then (signedLength? length).bind fun n => unsigned? (n + index)
  else unsigned? index

def wordItem? (index : Int64) (items : List Value) : Option Value :=
  (wordOffset? index items.length).bind fun offset => items[offset.toNat]?

theorem toInt_ofInt_of_inSignedRange (h : InSignedRange index) :
    (Int64.ofInt index).toInt = index :=
  Int64.toInt_ofInt_of_le h.1 h.2

theorem toInt_ofNat_of_inSignedRange (h : InSignedRange length) :
    (Int64.ofNat length).toInt = length := by
  unfold InSignedRange at h
  exact Int64.toInt_ofNat_of_lt (by omega)

theorem toInt_add_of_inSignedRange {m n : Int64} (h : InSignedRange (m.toInt + n.toInt)) :
    (m + n).toInt = m.toInt + n.toInt := by
  unfold InSignedRange at h
  rw [Int64.toInt_add]
  exact Int.bmod_eq_of_le (by omega) (by omega)

theorem map_toNat_unsigned? (n : Int64) :
    (unsigned? n).map UInt64.toNat = if 0 ≤ n.toInt then some n.toInt.toNat else none := by
  have hsign : 0 ≤ n ↔ 0 ≤ n.toInt := Int64.le_iff_toInt_le
  unfold unsigned?
  simp only [hsign]
  split
  · rename_i h
    exact congrArg some (Int64.toNat_toUInt64_of_le (hsign.2 h))
  · rfl

theorem offset_inSignedRange (hindex : InSignedRange index) (hlength : InSignedRange length) :
    InSignedRange (offset index length) := by
  unfold InSignedRange at *
  unfold offset
  split <;> omega

/-- The sum in words is the offset: it does not wrap around. -/
theorem toInt_add_eq_offset (hindex : InSignedRange index) (hlength : InSignedRange length)
    (h : index < 0) :
    (Int64.ofNat length + Int64.ofInt index).toInt = offset index length := by
  have hexact : (Int64.ofNat length).toInt + (Int64.ofInt index).toInt = offset index length := by
    rw [toInt_ofNat_of_inSignedRange hlength, toInt_ofInt_of_inSignedRange hindex]
    exact (if_pos h).symm
  rw [toInt_add_of_inSignedRange (hexact ▸ offset_inSignedRange hindex hlength), hexact]

theorem map_toNat_wordOffset? (hindex : InSignedRange index) (hlength : InSignedRange length) :
    (wordOffset? (.ofInt index) length).map UInt64.toNat =
      if 0 ≤ offset index length then some (offset index length).toNat else none := by
  have hsign : Int64.ofInt index < 0 ↔ index < 0 := by
    rw [Int64.lt_iff_toInt_lt, toInt_ofInt_of_inSignedRange hindex]
    rfl
  unfold wordOffset?
  by_cases h : index < 0
  · rw [if_pos (hsign.2 h), signedLength?, if_pos hlength, Option.bind_some, map_toNat_unsigned?,
      toInt_add_eq_offset hindex hlength h]
  · have hoffset : offset index length = index := if_neg h
    rw [if_neg (mt hsign.1 h), map_toNat_unsigned?, toInt_ofInt_of_inSignedRange hindex, hoffset]

theorem wordItem?_eq {items : List Value} (hindex : InSignedRange index)
    (hlength : InSignedRange items.length) :
    wordItem? (.ofInt index) items =
      (position? index items.length).bind fun position => items[position]? := by
  have hword : wordItem? (.ofInt index) items =
      ((wordOffset? (.ofInt index) items.length).map UInt64.toNat).bind
        fun position => items[position]? := by
    rw [wordItem?, Option.bind_map]
    rfl
  rw [hword, map_toNat_wordOffset? hindex hlength]
  unfold position?
  dsimp only
  by_cases hnonneg : 0 ≤ offset index items.length
  · by_cases hlt : offset index items.length < items.length
    · rw [if_pos hnonneg, if_pos ⟨hnonneg, hlt⟩]
    · -- words do not compare the offset with the length: the list has no item there
      rw [if_pos hnonneg, if_neg (fun h => hlt h.2)]
      exact List.getElem?_eq_none (by omega)
  · rw [if_neg hnonneg, if_neg (fun h => hnonneg h.1)]

/-! ## Items from either end -/

/-- An index from minus the length up to the length finds an item, counted from the front or, if it
is negative, from the end, which is the front of the reversed list. Any other index is refused, by
itself and the length. The sum on the way fits into 64 bits, and words find the same items. -/
theorem extract_counts_from_either_end (index : Int) (items : List Value) :
    ((∃ v, extract index (.array items) = .ok v) ↔
      -(items.length : Int) ≤ index ∧ index < items.length) ∧
    (∀ position (h : position < items.length),
      (position : Int) = index ∨ (position : Int) = items.length + index →
        extract index (.array items) = .ok items[position]) ∧
    (index < 0 → (InSignedRange index → InSignedRange (-1 - index)) ∧
      ∀ v, extract index (.array items) = .ok v ↔
        extract (-1 - index) (.array items.reverse) = .ok v) ∧
    (¬(-(items.length : Int) ≤ index ∧ index < items.length) →
      extract index (.array items) =
        .error ⟨"extract_index_data", .indexOutOfRange index items.length⟩) ∧
    (InSignedRange index → InSignedRange items.length →
      InSignedRange (offset index items.length) ∧
      (index < 0 →
        (Int64.ofNat items.length + Int64.ofInt index).toInt = offset index items.length) ∧
      extract index (.array items) = (wordItem? (.ofInt index) items).elim
        (.error ⟨"extract_index_data", .indexOutOfRange index items.length⟩) .ok) := by
  refine ⟨exists_extract_array_iff, fun position h hposition => ?_,
    fun hneg => ⟨fun hindex => ?_, fun v => extract_reverse_ok_iff hneg⟩,
    fun hbeyond => ?_, fun hindex hlength => ⟨offset_inSignedRange hindex hlength, ?_, ?_⟩⟩
  · exact extract_array_of_position h (position?_eq_some_iff.2 ⟨h, hposition⟩)
  · unfold InSignedRange at *
    omega
  · refine extract_array_of_none (Option.eq_none_iff_forall_ne_some.2 fun position hposition => ?_)
    exact hbeyond (exists_position?_iff.1 ⟨position, hposition⟩)
  · exact toInt_add_eq_offset hindex hlength
  · rw [wordItem?_eq hindex hlength, extract]
    cases (position? index items.length).bind fun position => items[position]? <;> rfl

/-- The last of three items is the first of them reversed. The least index of 64 bits is refused,
and its sum with the length is exact in words. -/
theorem extract_counts_from_either_end_legs :
    let legs : List Value := [.string "out", .string "stay", .string "back"]
    let least : Int := -9223372036854775808
    extract (-1) (.array legs) = .ok (.string "back") ∧
      extract 0 (.array legs.reverse) = .ok (.string "back") ∧
      InSignedRange least ∧ InSignedRange (-1 - least) ∧
      ¬(-(legs.length : Int) ≤ least ∧ least < legs.length) ∧
      extract least (.array legs) = .error ⟨"extract_index_data", .indexOutOfRange least 3⟩ ∧
      InSignedRange legs.length ∧
      (Int64.ofNat legs.length + Int64.ofInt least).toInt = -9223372036854775805 ∧
      wordItem? (.ofInt (-1)) legs = some (.string "back") ∧
      extract (-1) (.array legs) = (wordItem? (.ofInt (-1)) legs).elim
        (.error ⟨"extract_index_data", .indexOutOfRange (-1) 3⟩) .ok := by
  intro legs least
  obtain ⟨-, hfound, hmirrored, -, hlastWords⟩ := extract_counts_from_either_end (-1) legs
  obtain ⟨-, -, hflipped, hrefused, hleastWords⟩ := extract_counts_from_either_end least legs
  have hlast : extract (-1) (.array legs) = .ok (.string "back") :=
    hfound 2 (by decide) (.inr (by decide))
  have hfirst : extract 0 (.array legs.reverse) = .ok (.string "back") :=
    ((hmirrored (by decide)).2 _).1 hlast
  have hleast : InSignedRange least := by decide
  have hlength : InSignedRange legs.length := by decide
  have hbeyond : ¬(-(legs.length : Int) ≤ least ∧ least < legs.length) := by decide
  obtain ⟨-, hsum, -⟩ := hleastWords hleast hlength
  obtain ⟨-, -, hwords⟩ := hlastWords (by decide) hlength
  exact ⟨hlast, hfirst, hleast, (hflipped (by decide)).1 hleast, hbeyond, hrefused hbeyond,
    hlength, hsum (by decide), by decide +kernel, hwords⟩

end PayloadMapping.Action
