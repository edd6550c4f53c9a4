import PayloadMapping.Action.Apply
import PayloadMapping.Proofs.Action.Quantity

set_option autoImplicit false

/-!
# Casts to numbers

The cast to an integer keeps whole numbers and integers in texts as they are and cuts doubles off
towards zero; what then does not fit into 64 bits is an error and is not replaced by the nearest
integer that fits.
-/

namespace PayloadMapping.Action

/-- A double as a value: a number, or a text that spells it and no integer of 64 bits. -/
inductive IsReal : Value → Extended → Prop
  | number (x : Double) : IsReal (.number (.double x)) (.finite x)
  | text {text : String} {x : Extended} : (∀ n, ¬IsIntegerText text n) → IsDoubleText text x →
      IsReal (.string text) x

theorem IsReal.countsAs {v : Value} {x : Extended} (h : IsReal v x) : v.CountsAs (.real x) := by
  cases h with
  | number x => exact .double
  | text hwhole htext => exact .doubleText hwhole htext

theorem truncate?_finite (x : Double) : truncate? (.finite x) = Total.fit? (cutOff x.value) := by
  rw [truncate?, Double.truncate_eq]

theorem truncate?_of_not_isFinite {x : Extended} (h : ¬x.IsFinite) : truncate? x = none := by
  cases x with
  | finite x => exact absurd (Extended.isFinite_finite x) h
  | infinite _ | notANumber => rfl

theorem ofInt_of_inSignedRange {n : Int} (h : InSignedRange n) :
    ∃ inRange, Value.ofInt n = .number (.whole n inRange) := by
  have inRange := inWholeRange_of_inSignedRange h
  refine ⟨inRange, ?_⟩
  simp only [Value.ofInt, Number.ofInt?, dif_pos inRange]

theorem castInt_of_isReal {v : Value} {x : Extended} (h : IsReal v x) :
    castInt v = (truncate? x).elim (.error ⟨castName, .invalidNumber v.render⟩)
      fun n => .ok (.ofInt n) := by
  have hread : Quantity.ofValue castName v = .ok (.real x) :=
    Quantity.ofValue_eq_ok_iff.2 h.countsAs
  cases h with
  | number x =>
    rw [castInt, hread]
    · dsimp only
      cases truncate? (.finite x) <;> rfl
    · intro n inRange hv
      cases hv
  | @text text x _ _ =>
    rw [castInt, hread]
    dsimp only
    cases truncate? x <;> rfl

theorem castInt_of_isIntegerText {text : String} {n : Int} (h : IsIntegerText text n) :
    castInt (.string text) = .ok (.ofInt n) := by
  have hread : Quantity.ofValue castName (.string text) = .ok (.whole n) :=
    Quantity.ofValue_eq_ok_iff.2 (.wholeText h)
  rw [castInt, hread]

theorem castInt_of_unreadable {text : String} (h : ∀ x, ¬IsDoubleText text x) :
    castInt (.string text) = .error ⟨castName, .invalidNumber text⟩ := by
  have hnone : Quantity.ofText? text = none := by
    rw [Option.eq_none_iff_forall_ne_some]
    intro q hq
    cases Quantity.ofText?_eq_some_iff.1 hq with
    | wholeText hwhole =>
      obtain ⟨_, hx⟩ := hwhole.1.spellsDouble
      exact h _ hx
    | doubleText _ hx => exact h _ hx
  rw [castInt, Quantity.ofValue, hnone]

theorem inSignedRange_of_truncate? {x : Extended} {n : Int} (h : truncate? x = some n) :
    InSignedRange n := by
  cases x with
  | finite x =>
    rw [truncate?_finite, Total.fit?] at h
    split at h
    · cases h
      assumption
    · cases h
  | infinite _ | notANumber => cases h

theorem whole_of_castInt {v w : Value} (h : castInt v = .ok w) :
    ∃ n inRange, w = .number (.whole n inRange) := by
  have hreal : ∀ {x : Extended}, IsReal v x → ∃ n inRange, w = .number (.whole n inRange) := by
    intro x hv
    rw [castInt_of_isReal hv] at h
    cases hcut : truncate? x with
    | none =>
      rw [hcut] at h
      cases h
    | some n =>
      rw [hcut] at h
      cases h
      exact ⟨n, ofInt_of_inSignedRange (inSignedRange_of_truncate? hcut)⟩
  cases v with
  | bool b =>
    obtain rfl : Value.ofInt b.toNat = w := Except.ok.inj h
    exact ⟨_, ofInt_of_inSignedRange (by cases b <;> decide)⟩
  | number n =>
    cases n with
    | whole n inRange =>
      cases h
      exact ⟨n, inRange, rfl⟩
    | double x => exact hreal (.number x)
  | string text =>
    by_cases hwhole : ∃ n, IsIntegerText text n
    · obtain ⟨n, hn⟩ := hwhole
      rw [castInt_of_isIntegerText hn] at h
      cases h
      exact ⟨n, ofInt_of_inSignedRange hn.2⟩
    · by_cases hdouble : ∃ x, IsDoubleText text x
      · obtain ⟨x, hx⟩ := hdouble
        exact hreal (.text (not_exists.1 hwhole) hx)
      · rw [castInt_of_unreadable (not_exists.1 hdouble)] at h
        cases h
  | null | array _ | object _ => cases h

/-- The cast to an integer truncates exactly: the result is the value cut off towards zero, or an
error if 64 bits do not hold that. -/
theorem castInt_truncates :
    (∀ n inRange, convert .int (.number (.whole n inRange)) =
      .ok (.number (.whole n inRange))) ∧
    (∀ v x, IsReal v (.finite x) → InSignedRange (cutOff x.value) →
      ∃ inRange, convert .int v = .ok (.number (.whole (cutOff x.value) inRange))) ∧
    (∀ v x, IsReal v (.finite x) → ¬InSignedRange (cutOff x.value) →
      convert .int v = .error ⟨castName, .invalidNumber v.render⟩) ∧
    (∀ v x, IsReal v x → ¬x.IsFinite →
      convert .int v = .error ⟨castName, .invalidNumber v.render⟩) ∧
    (∀ text n, IsIntegerText text n →
      ∃ inRange, convert .int (.string text) = .ok (.number (.whole n inRange))) ∧
    (∀ b, convert .int (.bool b) = .ok (.number (if b then .one else .zero))) ∧
    (∀ v, v.kind = .null ∨ v.kind = .array ∨ v.kind = .object → convert .int v =
      .error ⟨castName, .invalidInput "number, string or bool" v.kind⟩) ∧
    (∀ text, (∀ x, ¬IsDoubleText text x) →
      convert .int (.string text) = .error ⟨castName, .invalidNumber text⟩) := by
  refine ⟨fun n inRange => rfl, fun v x hv hfits => ?_, fun v x hv hfits => ?_,
    fun v x hv hx => ?_, fun text n hn => ?_, fun b => ?_, fun v hv => ?_,
    fun text htext => castInt_of_unreadable htext⟩
  · obtain ⟨inRange, hvalue⟩ := ofInt_of_inSignedRange hfits
    refine ⟨inRange, ?_⟩
    rw [convert, castInt_of_isReal hv, truncate?_finite, Total.fit?, if_pos hfits, ← hvalue]
    rfl
  · rw [convert, castInt_of_isReal hv, truncate?_finite, Total.fit?, if_neg hfits]
    rfl
  · rw [convert, castInt_of_isReal hv, truncate?_of_not_isFinite hx]
    rfl
  · obtain ⟨inRange, hvalue⟩ := ofInt_of_inSignedRange hn.2
    exact ⟨inRange, (castInt_of_isIntegerText hn).trans (congrArg Except.ok hvalue)⟩
  · cases b <;> rfl
  · cases v with
    | null | array _ | object _ => rfl
    | bool _ | number _ | string _ => simp [Value.kind] at hv

/-- A text is cut off towards zero, one at the upper end is kept to its last digit, and the double
next to that end is refused. -/
theorem castInt_truncates_fares :
    let debt : Double := ⟨true, 5 * Nat.pow 2 1073, by decide +kernel⟩
    let limit : Double := ⟨false, Nat.pow 2 1137, by decide +kernel⟩
    let greatest : String := "9223372036854775807"
    IsReal (.string " -2.5") (.finite debt) ∧ cutOff debt.value = -2 ∧
      (∃ inRange, convert .int (.string " -2.5") = .ok (.number (.whole (-2) inRange))) ∧
      IsReal (.number (.double limit)) (.finite limit) ∧ ¬InSignedRange (cutOff limit.value) ∧
      convert .int (.number (.double limit)) =
        .error ⟨castName, .invalidNumber (Value.number (.double limit)).render⟩ ∧
      IsReal (.string "inf") (.infinite false) ∧
      convert .int (.string "inf") = .error ⟨castName, .invalidNumber "inf"⟩ ∧
      IsIntegerText greatest 9223372036854775807 ∧
      (∃ inRange, convert .int (.string greatest) =
        .ok (.number (.whole 9223372036854775807 inRange))) ∧
      convert .int .null = .error ⟨castName, .invalidInput "number, string or bool" .null⟩ ∧
      (∀ x, ¬IsDoubleText "taxi" x) ∧
      convert .int (.string "taxi") = .error ⟨castName, .invalidNumber "taxi"⟩ := by
  intro debt limit greatest
  obtain ⟨-, hfits, hleaves, hinfinite, hkept, -, hunfit, hunreadable⟩ := castInt_truncates
  have hdebt : IsReal (.string " -2.5") (.finite debt) :=
    .text (not_isIntegerText (by decide +kernel))
      (Numeral.double?_eq_some_iff.1 (by decide +kernel))
  have hcut : cutOff debt.value = -2 := by
    rw [← Double.truncate_eq]
    decide +kernel
  have hlimit : ¬InSignedRange (cutOff limit.value) := by
    rw [← Double.truncate_eq]
    decide +kernel
  have hinf : IsReal (.string "inf") (.infinite false) :=
    .text (not_isIntegerText (by decide +kernel))
      (Numeral.double?_eq_some_iff.1 (by decide +kernel))
  have hgreatest : IsIntegerText greatest 9223372036854775807 :=
    Numeral.signed64?_eq_some_iff.1 (by decide +kernel)
  have htaxi : ∀ x, ¬IsDoubleText "taxi" x := by
    intro x hx
    have hnone : Numeral.double? (Text.trimList "taxi".toList) = none := by decide +kernel
    rw [Numeral.double?_eq_some_iff.2 hx] at hnone
    cases hnone
  have hdebtCast := hfits _ _ hdebt (by rw [hcut]; decide)
  rw [hcut] at hdebtCast
  exact ⟨hdebt, hcut, hdebtCast, .number limit, hlimit, hleaves _ _ (.number limit) hlimit, hinf,
    hinfinite _ _ hinf (Extended.not_isFinite_infinite false), hgreatest, hkept _ _ hgreatest,
    hunfit .null (.inl rfl), htaxi, hunreadable _ htaxi⟩

end PayloadMapping.Action
