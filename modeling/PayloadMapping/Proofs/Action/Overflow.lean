import PayloadMapping.Proofs.Action.Cast
import PayloadMapping.Proofs.Action.Sum

set_option autoImplicit false

/-!
# Results beyond the doubles

A result that is no finite double is written as null. A cast to an integer never ends that way. A
cast to a double does for the texts that spell infinity, no number or a fraction beyond the
doubles, and a sum does when it leaves the doubles on the way; all other results are numbers.
-/

namespace PayloadMapping

namespace Numeral

/-- A text without a sign that stands for no finite double: a name of infinity or of no number,
or a fraction that is rounded to infinity. -/
inductive SpellsBeyond : List Char → Prop
  | infinity {cs : List Char} : cs.map Char.toLower = ['i', 'n', 'f'] ∨
      cs.map Char.toLower = ['i', 'n', 'f', 'i', 'n', 'i', 't', 'y'] → SpellsBeyond cs
  | notANumber {cs : List Char} : cs.map Char.toLower = ['n', 'a', 'n'] → SpellsBeyond cs
  | fraction {cs : List Char} {d : Decimal} : SpellsFraction cs d → overflow ≤ d.value →
      SpellsBeyond cs

theorem spellsBeyond_iff {cs : List Char} (negative : Bool) :
    SpellsBeyond cs ↔ ∃ x, SpellsUnsigned negative cs x ∧ ¬x.IsFinite := by
  constructor
  · intro h
    cases h with
    | infinity hname => exact ⟨_, .infinity hname, Extended.not_isFinite_infinite negative⟩
    | notANumber hname => exact ⟨_, .notANumber hname, Extended.not_isFinite_notANumber⟩
    | @fraction d hspells hbound =>
      refine ⟨_, .fraction hspells, fun hfinite => ?_⟩
      exact absurd ((Extended.ofDecimal_isFinite_iff d).1 hfinite) (not_lt.2 hbound)
  · rintro ⟨x, hspells, hx⟩
    cases hspells with
    | infinity hname => exact .infinity hname
    | notANumber hname => exact .notANumber hname
    | @fraction d hspells =>
      exact .fraction hspells (not_lt.1 (mt (Extended.ofDecimal_isFinite_iff d).2 hx))

end Numeral

/-- A text for no finite double, blanks at its ends and a sign apart. -/
def IsBeyondText (text : String) : Prop :=
  ∃ cs, Numeral.SpellsBeyond cs ∧ (Text.trimList text.toList = cs ∨
    Text.trimList text.toList = '+' :: cs ∨ Text.trimList text.toList = '-' :: cs)

theorem isBeyondText_iff {text : String} :
    IsBeyondText text ↔ ∃ x, IsDoubleText text x ∧ ¬x.IsFinite := by
  unfold IsBeyondText IsDoubleText
  constructor
  · rintro ⟨cs, hbeyond, htext⟩
    obtain ⟨x, hspells, hx⟩ := (Numeral.spellsBeyond_iff false).1 hbeyond
    obtain ⟨y, hspells', hy⟩ := (Numeral.spellsBeyond_iff true).1 hbeyond
    rcases htext with htext | htext | htext
    · exact ⟨x, htext ▸ .unsigned hspells, hx⟩
    · exact ⟨x, htext ▸ .plus hspells, hx⟩
    · exact ⟨y, htext ▸ .minus hspells', hy⟩
  · rintro ⟨x, hdouble, hx⟩
    generalize Text.trimList text.toList = cs at hdouble ⊢
    cases hdouble with
    | unsigned hspells => exact ⟨_, (Numeral.spellsBeyond_iff _).2 ⟨x, hspells, hx⟩, .inl rfl⟩
    | plus hspells => exact ⟨_, (Numeral.spellsBeyond_iff _).2 ⟨x, hspells, hx⟩, .inr (.inl rfl)⟩
    | minus hspells => exact ⟨_, (Numeral.spellsBeyond_iff _).2 ⟨x, hspells, hx⟩, .inr (.inr rfl)⟩

theorem IsIntegerText.isFinite {text : String} {n : Int} {x : Extended}
    (h : IsIntegerText text n) (hx : IsDoubleText text x) : x.IsFinite := by
  obtain ⟨negative, hspells⟩ := h.1.spellsDouble
  rw [hx.unique hspells, Extended.ofDecimal_isFinite_iff ⟨n.natAbs, 0⟩]
  have inRange := inWholeRange_of_inSignedRange h.2
  have hbound := Extended.ofInt_isFinite_iff.1 (Extended.isFinite_ofInt inRange)
  rwa [Decimal.value, zpow_zero, mul_one, Nat.cast_natAbs, Int.cast_abs]

theorem Value.CountsAs.not_isFinite_iff {v : Value} {q : Quantity} (h : v.CountsAs q) :
    ¬q.toExtended.IsFinite ↔ ∃ text, v = .string text ∧ IsBeyondText text := by
  cases h with
  | @whole n inRange _ | @beyond n inRange _ =>
    exact iff_of_false (not_not.2 (Extended.isFinite_ofInt inRange)) (by simp)
  | double => exact iff_of_false (not_not.2 (Extended.isFinite_finite _)) (by simp)
  | @wholeText text n hn =>
    have inRange := inWholeRange_of_inSignedRange hn.2
    refine iff_of_false (not_not.2 (Extended.isFinite_ofInt inRange)) ?_
    rintro ⟨_, hsame, hbeyond⟩
    cases hsame
    obtain ⟨x, hx, hinfinite⟩ := isBeyondText_iff.1 hbeyond
    exact hinfinite (hn.isFinite hx)
  | @doubleText text x _ hx =>
    simp only [Quantity.toExtended, Value.string.injEq, exists_eq_left', isBeyondText_iff]
    constructor
    · intro hinfinite
      exact ⟨x, hx, hinfinite⟩
    · rintro ⟨y, hy, hinfinite⟩
      rwa [hx.unique hy]

namespace Action

theorem castFloat_of_countsAs {v : Value} {q : Quantity} (h : v.CountsAs q) :
    castFloat v = .ok (.ofExtended q.toExtended) := by
  have hread : Quantity.ofValue castName v = .ok q := Quantity.ofValue_eq_ok_iff.2 h
  cases h <;> rw [castFloat, hread]

/-- What the cast to a double gives is one, but for a text beyond the doubles, which gives null. -/
theorem castFloat_cases {v w : Value} (h : castFloat v = .ok w) :
    (∃ x, w = .number (.double x)) ∨
      w = .null ∧ ∃ text, v = .string text ∧ IsBeyondText text := by
  have hnumeric : ∀ {q : Quantity}, v.CountsAs q → (∃ x, w = .number (.double x)) ∨
      w = .null ∧ ∃ text, v = .string text ∧ IsBeyondText text := by
    intro q hq
    obtain rfl := Except.ok.inj ((castFloat_of_countsAs hq).symm.trans h)
    rw [← hq.not_isFinite_iff]
    exact (Value.ofExtended_cases q.toExtended).imp_left And.left
  cases v with
  | bool b =>
    obtain rfl : Value.ofExtended (.ofInt b.toNat) = w := Except.ok.inj h
    obtain ⟨d, hd⟩ := Extended.isFinite_ofInt (show InWholeRange b.toNat by cases b <;> decide)
    exact .inl ⟨d, by rw [hd, Value.ofExtended]⟩
  | number n => exact hnumeric (Quantity.ofNumber_eq_iff.1 rfl)
  | string text =>
    cases hread : Quantity.ofValue castName (.string text) with
    | ok q => exact hnumeric (Quantity.ofValue_eq_ok_iff.1 hread)
    | error e =>
      rw [castFloat, hread] at h
      cases h
  | null | array _ | object _ => cases h

theorem castFloat_eq_null_iff {v : Value} :
    castFloat v = .ok .null ↔ ∃ text, v = .string text ∧ IsBeyondText text := by
  constructor
  · intro h
    rcases castFloat_cases h with ⟨x, hx⟩ | ⟨-, hbeyond⟩
    · cases hx
    · exact hbeyond
  · rintro ⟨text, rfl, htext⟩
    obtain ⟨x, hx, -⟩ := isBeyondText_iff.1 htext
    obtain ⟨q, hq⟩ := Value.isNumeric_iff.1 (.text hx)
    have hinfinite : ¬q.toExtended.IsFinite := hq.not_isFinite_iff.2 ⟨text, rfl, htext⟩
    rw [castFloat_of_countsAs hq, Value.ofExtended_eq_null_iff.2 hinfinite]

/-- What the numeric actions give is a number, but for null in place of a result beyond the
doubles: of a text for no finite double, and of a sum that leaves the doubles and is no integer. -/
theorem numeric_results (v : Value) (lists key : String) (scope : Value) :
    (∀ w, convert .int v = .ok w → ∃ n inRange, w = .number (.whole n inRange)) ∧
    (∀ w, convert .float v = .ok w → (∃ x, w = .number (.double x)) ∨ w = .null) ∧
    (convert .float v = .ok .null ↔ ∃ text, v = .string text ∧ IsBeyondText text) ∧
    (∀ w, sumField lists key scope = .ok w → (∃ n, w = .number n) ∨ w = .null) ∧
    (sumField lists key scope = .ok .null ↔
      (∀ path ∈ pathList lists, ¬LeadsElsewhere scope path) ∧
        ∃ qs, List.Forall₂ Value.CountsAs (addends key scope (pathList lists)) qs ∧
          (∀ terms, qs = terms.map .whole → ¬StaysInRange terms) ∧
          ¬Extended.StaysFinite .zero (qs.map Quantity.toExtended)) := by
  refine ⟨fun w => whole_of_castInt, fun w h => ?_, castFloat_eq_null_iff, fun w h => ?_, ?_⟩
  · exact (castFloat_cases h).imp_right And.left
  · obtain ⟨-, _, -, rfl⟩ := sumField_eq_ok_iff.1 h
    exact Total.value_number_or_null _
  · rw [sumField_eq_ok_iff]
    simp only [← Total.value_eq_null_iff, eq_comm]

/-- A cast to an integer, and fares beyond the doubles. -/
theorem numeric_results_fares :
    let record (text : String) : Value := .object [("fare", .string text)]
    let scope : Value := .object [("legs", .array [record "1e308", record "1e308"])]
    let two : Value := .number (.whole 2 (by decide))
    convert .int (.string "2.5") = .ok two ∧
      (∃ n inRange, two = .number (.whole n inRange)) ∧
      IsBeyondText "inf" ∧ convert .float (.string "inf") = .ok .null ∧
      sumField "legs" "fare" scope = .ok .null ∧
      ∀ path ∈ pathList "legs", ¬LeadsElsewhere scope path := by
  intro record scope two
  have htwo : convert .int (.string "2.5") = .ok two := by decide +kernel
  have hinf : IsBeyondText "inf" := ⟨_, .infinity (.inl (by decide +kernel)), .inl rfl⟩
  have hnull : sumField "legs" "fare" scope = .ok .null := by decide +kernel
  obtain ⟨hwhole, -⟩ := numeric_results (.string "2.5") "legs" "fare" scope
  obtain ⟨-, -, hbeyond, -, hsum⟩ := numeric_results (.string "inf") "legs" "fare" scope
  exact ⟨htwo, hwhole two htwo, hinf, hbeyond.2 ⟨"inf", rfl, hinf⟩, hnull, (hsum.1 hnull).1⟩

/-- The cast of a text to a double and a sum give null, while the cast of the same text to an
integer fails. -/
theorem castFloat_sumField_null :
    let record (text : String) : Value := .object [("fare", .string text)]
    let scope : Value := .object [("legs", .array [record "1e308", record "1e308"])]
    convert .float (.string "inf") = .ok .null ∧
      convert .int (.string "inf") = .error ⟨castName, .invalidNumber "inf"⟩ ∧
      convert .float (.string "1e999") = .ok .null ∧
      sumField "legs" "fare" scope = .ok .null := by
  decide +kernel

end Action

end PayloadMapping
