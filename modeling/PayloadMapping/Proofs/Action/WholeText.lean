import Mathlib.Data.List.DropRight
import PayloadMapping.Proofs.Action.Cast

set_option autoImplicit false

/-!
# Whole numbers cast to a text and back

The text of a whole number has nothing to trim, and the cast to an integer reads it as that number
if 64 bits with a sign hold it. The text of a greater one is read as a double. Rounding does not
bring that below `2 ^ 63`, so the way back ends in an error there and never in another number.
-/

namespace PayloadMapping

namespace Text

theorem trimList_of_forall {cs : List Char} (h : ∀ c ∈ cs, isBlank c = false) :
    trimList cs = cs := by
  have hfront : cs.dropWhile isBlank = cs :=
    List.dropWhile_eq_self_iff.2 fun hne => by simp [h _ (List.getElem_mem hne)]
  have hback : cs.rdropWhile isBlank = cs :=
    List.rdropWhile_eq_self_iff.2 fun hne => by simp [h _ (List.getLast_mem hne)]
  rw [trimList, hfront]
  exact hback

theorem isBlank_eq_false_of_isDigit {c : Char} (h : Numeral.isDigit c = true) :
    isBlank c = false := by
  have hrange : '0' ≤ c ∧ c ≤ '9' := by simpa [Numeral.isDigit] using h
  have hlow : 48 ≤ c.toNat := hrange.1
  have hhigh : c.toNat ≤ 57 := hrange.2
  simp only [isBlank, inRanges, blankRanges, List.any_cons, List.any_nil, Bool.or_false,
    Bool.or_eq_false_iff, Bool.and_eq_false_iff, decide_eq_false_iff_not]
  omega

theorem trimList_toString (n : Int) : trimList (toString n).toList = (toString n).toList := by
  have hdigits : ∀ c ∈ Nat.toDigits 10 n.natAbs, isBlank c = false :=
    fun _ hc => isBlank_eq_false_of_isDigit (Numeral.isDigit_of_mem_toDigits hc)
  apply trimList_of_forall
  rw [Numeral.toList_toString]
  split
  · exact hdigits
  · exact List.forall_mem_cons.2 ⟨by decide, hdigits⟩

end Text

namespace Extended

theorem le_nearestUnits {num den e : Nat} (hden : 0 < den) (h : 2 ^ (e + 53) * den ≤ num) :
    2 ^ (e + 53) ≤ nearestUnits num den := by
  rw [← not_lt, nearestUnits_lt_iff hden]
  have hdouble : 2 ^ (e + 54) * den = 2 * (2 ^ (e + 53) * den) := by ring
  omega

theorem ofDecimal_zero_power (negative : Bool) (coefficient : Nat) :
    ofDecimal negative coefficient 0 = nearest negative (coefficient * Double.unitsPerOne) 1 := by
  unfold ofDecimal
  split
  · rename_i hzero
    rw [hzero, Nat.zero_mul]
  · rw [if_neg (by omega), if_neg (by omega), if_pos le_rfl, Int.toNat_zero, Nat.pow_eq,
      Nat.pow_zero, Nat.mul_one]

end Extended

namespace Action

theorem spellsInteger_toString (n : Int) :
    Numeral.SpellsInteger (Text.trimList (toString n).toList) n := by
  rw [Text.trimList_toString, ← Numeral.integer?_eq_some_iff]
  exact Numeral.integer?_toString n

theorem isIntegerText_toString_iff {n m : Int} :
    IsIntegerText (toString n) m ↔ m = n ∧ InSignedRange n := by
  have hspells := Numeral.integer?_eq_some_iff.2 (spellsInteger_toString n)
  constructor
  · rintro ⟨hm, hrange⟩
    have hsame : n = m := Option.some.inj (hspells.symm.trans (Numeral.integer?_eq_some_iff.2 hm))
    exact ⟨hsame.symm, hsame ▸ hrange⟩
  · rintro ⟨rfl, hrange⟩
    exact ⟨spellsInteger_toString m, hrange⟩

theorem isDoubleText_toString {n : Int} (h : 0 ≤ n) : IsDoubleText (toString n) (.ofInt n) := by
  have hdigits : Numeral.IsDigits (Nat.toDigits 10 n.natAbs) :=
    ⟨Nat.toDigits_ne_nil, fun _ => Numeral.isDigit_of_mem_toDigits⟩
  have hspells := Numeral.SpellsFraction.whole hdigits .none
  rw [List.append_nil, Nat.ofDigitChars_ten_toDigits] at hspells
  rw [IsDoubleText, Text.trimList_toString, Numeral.toList_toString, if_pos h, Extended.ofInt,
    decide_eq_false (by omega), ← Extended.ofDecimal_zero_power]
  exact .unsigned (.fraction hspells)

theorem truncate?_ofInt {n : Int} (h : 9223372036854775808 ≤ n) :
    truncate? (.ofInt n) = none := by
  -- the exponent of the unit stays a variable, so that no power of that size is computed
  obtain ⟨c, -, hone⟩ := Double.exists_exponent_unitsPerOne_eq
  have hunits : 2 ^ 63 * Double.unitsPerOne ≤
      Extended.nearestUnits (n.natAbs * Double.unitsPerOne) 1 := by
    have hpower : 2 ^ 63 * Double.unitsPerOne = 2 ^ (c + 10 + 53) := by
      rw [hone]
      ring
    rw [hpower]
    refine Extended.le_nearestUnits Nat.one_pos ?_
    rw [← hpower, Nat.mul_one]
    exact Nat.mul_le_mul_right _ (by omega)
  rw [Extended.ofInt, decide_eq_false (by omega), Extended.nearest, Extended.ofUnits]
  split
  · rw [truncate?, Total.fit?, if_neg]
    have hquotient := (Nat.le_div_iff_mul_le Double.unitsPerOne_pos).2 hunits
    rw [Double.truncate, if_neg Bool.false_ne_true, InSignedRange]
    dsimp only
    omega
  · rfl

theorem castInt_toString {n : Int} (inRange : InWholeRange n) :
    castInt (.string (toString n)) = if InSignedRange n then .ok (.number (.whole n inRange))
      else .error ⟨castName, .invalidNumber (toString n)⟩ := by
  split
  · rename_i hsigned
    obtain ⟨inRange, hvalue⟩ := ofInt_of_inSignedRange hsigned
    rw [castInt_of_isIntegerText (isIntegerText_toString_iff.2 ⟨rfl, hsigned⟩), hvalue]
  · rename_i hbeyond
    have hlarge : 9223372036854775808 ≤ n := by
      unfold InWholeRange at inRange
      unfold InSignedRange at hbeyond
      omega
    have hreal : IsReal (.string (toString n)) (.ofInt n) :=
      .text (fun _ hm => hbeyond (isIntegerText_toString_iff.1 hm).2)
        (isDoubleText_toString (by omega))
    rw [castInt_of_isReal hreal, truncate?_ofInt hlarge]
    rfl

/-- The cast to a text and back is the identity on the whole numbers of 64 bits with a sign, as is
the cast of the number itself; the greater ones are refused on the way back. -/
theorem cast_text_and_back (n : Int) (inRange : InWholeRange n) (scope : Value) :
    apply (.cast .str) (.number (.whole n inRange)) scope = .ok (.string (toString n)) ∧
    apply (.cast .int) (.number (.whole n inRange)) scope = .ok (.number (.whole n inRange)) ∧
    apply (.chain [.cast .str, .cast .int]) (.number (.whole n inRange)) scope =
      if InSignedRange n then .ok (.number (.whole n inRange))
      else .error ⟨castName, .invalidNumber (toString n)⟩ := by
  have htext : apply (.cast .str) (.number (.whole n inRange)) scope =
      .ok (.string (toString n)) :=
    congrArg (fun text => Except.ok (Value.string text)) String.ofList_toList
  have hback : apply (.cast .int) (.string (toString n)) scope =
      if InSignedRange n then .ok (.number (.whole n inRange))
      else .error ⟨castName, .invalidNumber (toString n)⟩ := castInt_toString inRange
  refine ⟨htext, rfl, ?_⟩
  rw [apply]
  simp only [applyAll, htext, hback]
  by_cases hsigned : InSignedRange n
  · simp only [if_pos hsigned]
  · simp only [if_neg hsigned]

/-- A number that no double is comes back as it was, and the greatest number of 64 bits, whose
double is `2 ^ 64`, does not come back. -/
theorem cast_text_and_back_distances :
    ∃ (odd : InWholeRange 9007199254740993) (greatest : InWholeRange 18446744073709551615),
      apply (.chain [.cast .str, .cast .int]) (.number (.whole 9007199254740993 odd)) .null =
        .ok (.number (.whole 9007199254740993 odd)) ∧
      apply (.chain [.cast .str, .cast .int])
        (.number (.whole 18446744073709551615 greatest)) .null =
        .error ⟨castName, .invalidNumber "18446744073709551615"⟩ := by
  have odd : InWholeRange 9007199254740993 := by decide
  have greatest : InWholeRange 18446744073709551615 := by decide
  obtain ⟨-, -, hkept⟩ := cast_text_and_back 9007199254740993 odd .null
  obtain ⟨-, -, hrefused⟩ := cast_text_and_back 18446744073709551615 greatest .null
  rw [if_pos (by decide)] at hkept
  rw [if_neg (by decide)] at hrefused
  exact ⟨odd, greatest, hkept, hrefused⟩

/-- From `2 ^ 63` on the cast of the number gives it back, and the cast of its text fails. -/
theorem not_cast_text_and_back :
    ∃ inRange : InWholeRange 9223372036854775808,
      apply (.cast .int) (.number (.whole 9223372036854775808 inRange)) .null =
        .ok (.number (.whole 9223372036854775808 inRange)) ∧
      apply (.chain [.cast .str, .cast .int])
        (.number (.whole 9223372036854775808 inRange)) .null =
        .error ⟨castName, .invalidNumber "9223372036854775808"⟩ := by
  refine ⟨by decide, rfl, ?_⟩
  decide +kernel

end Action

end PayloadMapping
