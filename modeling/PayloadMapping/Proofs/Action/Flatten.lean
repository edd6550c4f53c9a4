import PayloadMapping.Action.Apply

set_option autoImplicit false

/-!
# Flat lists

The three ways of making a list flat go through its items one by one and fail at the first that
does not fit, so a list may be cut anywhere. Joining the lists that records hold is the same as
taking the field of the records first and joining what that gives, nulls left out. A delimiter is
put between the texts of the result at the end and does not change what fails.
-/

namespace PayloadMapping

theorem Text.join_eq_intercalate (delimiter : String) (texts : List String) :
    Text.join delimiter texts = delimiter.intercalate texts := by
  induction texts with
  | nil => rfl
  | cons text rest ih =>
    cases rest with
    | nil => rw [Text.join, String.intercalate_singleton]
    | cons next more => rw [Text.join, String.intercalate_cons_cons, ih]; simp

namespace Action

variable {strategy : FlatStrategy} {key : String}

theorem pieces_append (items more : List Value) :
    pieces strategy key (items ++ more) = (pieces strategy key items).bind fun front =>
      (pieces strategy key more).map fun back => front ++ back := by
  induction items with
  | nil => cases hmore : pieces strategy key more <;> simp [pieces, hmore, Except.bind, Except.map]
  | cons item rest ih =>
    rw [List.cons_append, pieces, pieces, ih]
    cases piece strategy key item with
    | error e => rfl
    | ok taken =>
      cases pieces strategy key rest <;> cases pieces strategy key more <;>
        simp [Except.bind, Except.map]

theorem pieces_append_ok_iff {items more taken : List Value} :
    pieces strategy key (items ++ more) = .ok taken ↔ ∃ front back,
      pieces strategy key items = .ok front ∧ pieces strategy key more = .ok back ∧
        taken = front ++ back := by
  rw [pieces_append]
  cases pieces strategy key items <;> cases pieces strategy key more <;>
    simp [Except.bind, Except.map, eq_comm]

theorem pieces_cons_ok_iff {item : Value} {rest taken : List Value} :
    pieces strategy key (item :: rest) = .ok taken ↔ ∃ front back,
      piece strategy key item = .ok front ∧ pieces strategy key rest = .ok back ∧
        taken = front ++ back := by
  rw [pieces]
  cases piece strategy key item <;> cases pieces strategy key rest <;> simp [eq_comm]

/-! ## Lists inside records -/

theorem piece_listDictList_ok_iff (other : String) {item : Value} {taken : List Value} :
    piece .listDictList key item = .ok taken ↔ ∃ fields,
      piece .listDict key item = .ok fields ∧
        pieces .nestedList other (fields.filter (· ≠ .null)) = .ok taken := by
  cases item with
  | object fields =>
    cases hget : Fields.get? key fields with
    | none => simp [piece, pieces, hget]
    | some v => cases v <;> simp [piece, pieces, hget, unfit]
  | null | bool _ | number _ | string _ | array _ => simp [piece, unfit]

theorem pieces_listDictList_ok_iff (other : String) {items taken : List Value} :
    pieces .listDictList key items = .ok taken ↔ ∃ fields,
      pieces .listDict key items = .ok fields ∧
        pieces .nestedList other (fields.filter (· ≠ .null)) = .ok taken := by
  induction items generalizing taken with
  | nil => simp [pieces]
  | cons item rest ih =>
    simp only [pieces_cons_ok_iff, piece_listDictList_ok_iff other, ih]
    constructor
    · rintro ⟨front, back, ⟨first, hfirst, hfront⟩, ⟨later, hlater, hback⟩, rfl⟩
      refine ⟨first ++ later, ⟨first, later, hfirst, hlater, rfl⟩, ?_⟩
      rw [List.filter_append, pieces_append_ok_iff]
      exact ⟨front, back, hfront, hback, rfl⟩
    · rintro ⟨_, ⟨first, later, hfirst, hlater, rfl⟩, htaken⟩
      rw [List.filter_append, pieces_append_ok_iff] at htaken
      obtain ⟨front, back, hfront, hback, rfl⟩ := htaken
      exact ⟨front, back, ⟨first, hfirst, hfront⟩, ⟨later, hlater, hback⟩, rfl⟩

/-! ## The delimiter -/

theorem flattenList_array {given : Option String} (h : flatKey? strategy given = some key)
    (join : Option String) (items : List Value) :
    flattenList strategy given join (.array items) =
      (pieces strategy key items).map (joined join) := by
  simp only [flattenList, h]
  cases pieces strategy key items <;> rfl

theorem flattenList_ok_iff {given : Option String} (h : flatKey? strategy given = some key)
    {join : Option String} {items : List Value} {out : Value} :
    flattenList strategy given join (.array items) = .ok out ↔ ∃ taken,
      pieces strategy key items = .ok taken ∧ joined join taken = out := by
  rw [flattenList_array h]
  cases pieces strategy key items <;> simp [Except.map]

/-- A delimiter is not looked at before the items are taken. -/
theorem exists_taken (strategy : FlatStrategy) (given : Option String) (v : Value) :
    ∃ taken : Except ActionError (List Value),
      ∀ join, flattenList strategy given join v = taken.map (joined join) := by
  cases v with
  | array items =>
    cases hkey : flatKey? strategy given with
    | none =>
      refine ⟨.error ⟨"flat", .missingKey⟩, fun join => ?_⟩
      rw [flattenList, hkey]
      rfl
    | some key => exact ⟨pieces strategy key items, fun join => flattenList_array hkey join items⟩
  | null | bool _ | number _ | string _ | object _ => exact ⟨unfit "flat" "list" _, fun _ => rfl⟩

/-- Taking the lists out of records is taking the field of each and joining the lists among these,
a list may be cut anywhere, and a delimiter joins the texts of what comes out without it. -/
theorem flatten_strategies_agree :
    (∀ key given join items out,
      flattenList .listDictList (some key) join (.array items) = .ok out ↔ ∃ fields,
        flattenList .listDict (some key) none (.array items) = .ok (.array fields) ∧
          flattenList .nestedList given join (.array (fields.filter (· ≠ .null))) = .ok out) ∧
    (∀ strategy key items more out,
      flattenList strategy (some key) none (.array (items ++ more)) = .ok out ↔ ∃ front back,
        flattenList strategy (some key) none (.array items) = .ok (.array front) ∧
          flattenList strategy (some key) none (.array more) = .ok (.array back) ∧
          out = .array (front ++ back)) ∧
    (∀ strategy given delimiter v,
      (∀ out, flattenList strategy given (some delimiter) v = .ok out ↔ ∃ items,
        flattenList strategy given none v = .ok (.array items) ∧
          out = .string (delimiter.intercalate (items.map Value.render))) ∧
      ∀ e, flattenList strategy given (some delimiter) v = .error e ↔
        flattenList strategy given none v = .error e) := by
  refine ⟨fun key given join items out => ?_, fun strategy key items more out => ?_,
    fun strategy given delimiter v => ?_⟩
  · have hlists : flatKey? .listDictList (some key) = some key := rfl
    have hplain : flatKey? .listDict (some key) = some key := rfl
    have hempty : flatKey? .nestedList given = some "" := rfl
    rw [flattenList_ok_iff hlists]
    constructor
    · rintro ⟨taken, htaken, rfl⟩
      obtain ⟨fields, hfields, hnested⟩ := (pieces_listDictList_ok_iff "").1 htaken
      exact ⟨fields, (flattenList_ok_iff hplain).2 ⟨fields, hfields, rfl⟩,
        (flattenList_ok_iff hempty).2 ⟨taken, hnested, rfl⟩⟩
    · rintro ⟨fields, hplucked, hjoined⟩
      obtain ⟨_, hfields, ⟨⟩⟩ := (flattenList_ok_iff hplain).1 hplucked
      obtain ⟨taken, hnested, rfl⟩ := (flattenList_ok_iff hempty).1 hjoined
      exact ⟨taken, (pieces_listDictList_ok_iff "").2 ⟨fields, hfields, hnested⟩, rfl⟩
  · obtain ⟨used, hused⟩ : ∃ used, flatKey? strategy (some key) = some used := by
      cases strategy <;> exact ⟨_, rfl⟩
    simp only [flattenList_ok_iff hused, pieces_append_ok_iff]
    constructor
    · rintro ⟨_, ⟨front, back, hfront, hback, rfl⟩, rfl⟩
      exact ⟨front, back, ⟨front, hfront, rfl⟩, ⟨back, hback, rfl⟩, rfl⟩
    · rintro ⟨front, back, ⟨_, hfront, ⟨⟩⟩, ⟨_, hback, ⟨⟩⟩, rfl⟩
      exact ⟨front ++ back, ⟨front, back, hfront, hback, rfl⟩, rfl⟩
  · obtain ⟨taken, htaken⟩ := exists_taken strategy given v
    rw [htaken, htaken]
    cases taken with
    | error e => simp [Except.map]
    | ok items => simp [Except.map, joined, Text.join_eq_intercalate, eq_comm]

end Action

end PayloadMapping
