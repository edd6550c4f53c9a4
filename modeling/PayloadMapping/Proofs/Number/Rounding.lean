import Mathlib.Data.Rat.Floor
import PayloadMapping.Number.Width
import PayloadMapping.Proofs.Number.Interval

set_option autoImplicit false

/-!
# Rounding to doubles

A number is rounded to a finite double unless it is at least halfway from the largest double to
`2 ^ 1024`. That bound, `overflow`, decides alike for integers, decimals and sums of two doubles.
The integer part of a double is its value cut off towards zero.
-/

namespace PayloadMapping

/-- Halfway from the largest double to `2 ^ 1024`. -/
def overflow : ℚ := 2 ^ 1024 - 2 ^ 970

def Double.value (x : Double) : ℚ :=
  if x.negative then -(x.units / Double.unitsPerOne) else x.units / Double.unitsPerOne

/-- A number without its fraction: the whole number next to it on the side of zero. -/
def cutOff (q : ℚ) : ℤ := if 0 ≤ q then ⌊q⌋ else ⌈q⌉

theorem roundHalfEven_le_iff {num den k : Nat} (hden : 0 < den) :
    roundHalfEven num den ≤ k ↔
      2 * num < (2 * k + 1) * den ∨ 2 * num = (2 * k + 1) * den ∧ k % 2 = 0 := by
  have hnum := Nat.div_add_mod num den
  have hmod := Nat.mod_lt num hden
  have hbound : (2 * k + 1) * den = 2 * (den * k) + den := by ring
  rw [hbound]
  unfold roundHalfEven
  generalize num / den = q at hnum ⊢
  generalize num % den = r at hnum hmod ⊢
  rcases lt_trichotomy q k with h | rfl | h
  · have hle : den * q + den ≤ den * k := by
      calc den * q + den = den * (q + 1) := by ring
        _ ≤ den * k := Nat.mul_le_mul_left _ h
    have hparity : q % 2 < 2 := Nat.mod_lt _ (by omega)
    split
    · omega
    · split
      · omega
      · omega
  · split
    · omega
    · split
      · omega
      · omega
  · have hle : den * k + den ≤ den * q := by
      calc den * k + den = den * (k + 1) := by ring
        _ ≤ den * q := Nat.mul_le_mul_left _ h
    split
    · omega
    · split
      · omega
      · omega

namespace Extended

open Double

theorem quotient_lt (num den : Nat) : num / (den * spacing (num / den)) < 2 ^ 53 := by
  rw [← Nat.div_div_eq_div_mul]
  generalize num / den = q
  have hlt : q < 2 ^ (q.log2 + 1) := Nat.lt_log2_self
  have hle : 2 ^ (q.log2 + 1) ≤ 2 ^ 53 * spacing q := by
    rw [spacing_eq, ← pow_add]
    exact Nat.pow_le_pow_right (by omega) (by omega)
  exact Nat.div_lt_of_lt_mul (by rw [Nat.mul_comm]; omega)

theorem significand_le (num den : Nat) :
    roundHalfEven num (den * spacing (num / den)) ≤ 2 ^ 53 := by
  have hlt := quotient_lt num den
  rcases roundHalfEven_eq_or num (den * spacing (num / den)) with h | h <;> omega

theorem nearestUnits_mod_spacing (num den : Nat) :
    nearestUnits num den % spacing (nearestUnits num den) = 0 := by
  unfold nearestUnits
  have hle := significand_le num den
  generalize roundHalfEven num (den * spacing (num / den)) = m at hle ⊢
  rw [spacing_eq (num / den)]
  generalize (num / den).log2 - 52 = k
  refine Nat.mod_eq_zero_of_dvd ?_
  rcases hle.lt_or_eq with hlt | rfl
  · by_cases hm : m = 0
    · simp [hm]
    · have hlog : (m * 2 ^ k).log2 < k + 53 := by
        rw [Nat.log2_lt (Nat.mul_ne_zero hm (by positivity)), pow_add, Nat.mul_comm]
        exact Nat.mul_lt_mul_of_pos_left hlt (by positivity)
      rw [spacing_eq]
      exact (pow_dvd_pow 2 (by omega)).mul_left m
  · rw [← pow_add, spacing_eq, Nat.log2_two_pow]
    exact pow_dvd_pow 2 (by omega)

/-- Rounding to 53 bits stays below a power of two up to halfway from the last count below it. -/
theorem nearestUnits_lt_iff {num den : Nat} (hden : 0 < den) (e : Nat) :
    nearestUnits num den < 2 ^ (e + 53) ↔ 2 * num + 2 ^ e * den < 2 ^ (e + 54) * den := by
  have hbelow : num / den * den ≤ num := Nat.div_mul_le_self num den
  have habove : num < (num / den + 1) * den := by
    rw [Nat.mul_comm]
    exact Nat.lt_mul_div_succ num hden
  have hsignificand := significand_le num den
  have hbound : 2 ^ (e + 54) * den = 2 ^ 54 * (2 ^ e * den) := by ring
  rw [hbound]
  unfold nearestUnits
  -- the quotient lies in a binade below that of the bound, in that one, or above it
  rcases lt_trichotomy ((num / den).log2 - 52) e with hlow | hsame | hhigh
  · have hquotient : num / den + 1 ≤ 2 ^ (e + 52) :=
      Nat.lt_log2_self.trans_le (Nat.pow_le_pow_right (by omega) (by omega))
    have hnum : num < 2 ^ 52 * (2 ^ e * den) := by
      calc num < (num / den + 1) * den := habove
        _ ≤ 2 ^ (e + 52) * den := Nat.mul_le_mul_right den hquotient
        _ = 2 ^ 52 * (2 ^ e * den) := by ring
    refine iff_of_true ?_ (by omega)
    calc _ ≤ 2 ^ 53 * spacing (num / den) := Nat.mul_le_mul_right _ hsignificand
      _ = 2 ^ (53 + ((num / den).log2 - 52)) := by rw [spacing_eq, pow_add]
      _ < 2 ^ (e + 53) := Nat.pow_lt_pow_right (by omega) (by omega)
  · have hspacing : spacing (num / den) = 2 ^ e := by rw [spacing_eq, hsame]
    have hdenominator : 0 < den * 2 ^ e := by positivity
    -- the last significand is odd, so that a tie leaves the range
    have hlast : roundHalfEven num (den * 2 ^ e) ≤ 9007199254740991 ↔
        2 * num < (2 * 9007199254740991 + 1) * (den * 2 ^ e) :=
      (roundHalfEven_le_iff hdenominator).trans (or_iff_left fun h => absurd h.2 (by decide))
    rw [Nat.mul_comm den] at hlast
    rw [hspacing, pow_add, Nat.mul_comm (2 ^ e), Nat.mul_lt_mul_right (by positivity),
      Nat.mul_comm den]
    omega
  · have hlog : 2 ^ (num / den).log2 ≤ num / den := by
      refine Nat.log2_self_le fun h => ?_
      rw [h] at hhigh
      simp at hhigh
    have hle : 2 ^ (e + 53) ≤ num / den :=
      (Nat.pow_le_pow_right (by omega) (by omega)).trans hlog
    have hnum : 2 ^ 53 * (2 ^ e * den) ≤ num := by
      calc 2 ^ 53 * (2 ^ e * den) = 2 ^ (e + 53) * den := by ring
        _ ≤ num / den * den := Nat.mul_le_mul_right den hle
        _ ≤ num := hbelow
    have hrounded : 2 ^ 52 ≤ roundHalfEven num (den * spacing (num / den)) := by
      have hdiv : 2 ^ 52 ≤ num / (den * spacing (num / den)) := by
        rw [← Nat.div_div_eq_div_mul, Nat.le_div_iff_mul_le (spacing_pos _), spacing_eq, ← pow_add]
        exact (Nat.pow_le_pow_right (by omega) (by omega)).trans hlog
      rcases roundHalfEven_eq_or num (den * spacing (num / den)) with h | h <;> omega
    refine iff_of_false ?_ (by omega)
    rw [not_lt]
    calc 2 ^ (e + 53) ≤ 2 ^ (52 + ((num / den).log2 - 52)) :=
        Nat.pow_le_pow_right (by omega) (by omega)
      _ = 2 ^ 52 * spacing (num / den) := by rw [spacing_eq, pow_add]
      _ ≤ _ := Nat.mul_le_mul_right _ hrounded

/-! ## What stays finite -/

def IsFinite (x : Extended) : Prop := ∃ d, x = .finite d

theorem isFinite_finite (d : Double) : IsFinite (.finite d) := ⟨d, rfl⟩

theorem not_isFinite_infinite (negative : Bool) : ¬IsFinite (.infinite negative) := by
  rintro ⟨d, h⟩
  cases h

theorem not_isFinite_notANumber : ¬IsFinite .notANumber := by
  rintro ⟨d, h⟩
  cases h

theorem exists_exponent_overflow_eq : ∃ f, f = 970 ∧ overflow = 2 ^ (f + 54) - 2 ^ f := by
  unfold overflow
  exact ⟨970, rfl, rfl⟩

theorem word_lt_overflow : (18446744073709551616 : ℚ) < overflow := by
  obtain ⟨f, hf, hoverflow⟩ := exists_exponent_overflow_eq
  have hpow : (2 : ℚ) ^ 64 ≤ 2 ^ f := pow_le_pow_right₀ (by norm_num) (by omega)
  have hsplit : (2 : ℚ) ^ (f + 54) - 2 ^ f = (2 ^ 54 - 1) * 2 ^ f := by ring
  rw [hoverflow, hsplit]
  linarith

theorem overflow_le_pow_ten {n : Nat} (hn : 400 < n) : overflow ≤ 10 ^ n := by
  obtain ⟨f, hf, hoverflow⟩ := exists_exponent_overflow_eq
  have hpow : (0 : ℚ) < 2 ^ f := by positivity
  calc overflow ≤ 2 ^ (f + 54) := by linarith
    _ ≤ 2 ^ (3 * n) := pow_le_pow_right₀ (by norm_num) (by omega)
    _ = 8 ^ n := by rw [pow_mul]; norm_num
    _ ≤ 10 ^ n := pow_le_pow_left₀ (by norm_num) (by norm_num) n

/-- The bound of the finite counts of units, and `overflow` from it. -/
theorem exists_exponent_fits_iff : ∃ e, (∀ units, Fits units ↔
      units % spacing units = 0 ∧ units < 2 ^ (e + 53)) ∧
    2 * overflow * unitsPerOne = 2 ^ (e + 54) - 2 ^ e := by
  obtain ⟨c, hc, hone⟩ := exists_exponent_unitsPerOne_eq
  obtain ⟨f, hf, hoverflow⟩ := exists_exponent_overflow_eq
  refine ⟨f + c + 1, fun units => ?_, ?_⟩
  · unfold Fits
    generalize hbits : 2098 = bits
    obtain rfl : bits = f + c + 1 + 53 := by omega
    rfl
  · rw [hone, hoverflow]
    push_cast
    ring

theorem ofUnits_isFinite_iff {negative : Bool} {units : Nat} :
    (ofUnits negative units).IsFinite ↔ Fits units := by
  unfold ofUnits
  split
  · exact iff_of_true (isFinite_finite _) ‹_›
  · exact iff_of_false (not_isFinite_infinite _) ‹_›

theorem nearest_isFinite_iff {negative : Bool} {num den : Nat} (hden : 0 < den) :
    (nearest negative num den).IsFinite ↔ (num / den / unitsPerOne : ℚ) < overflow := by
  obtain ⟨e, hfits, hoverflow⟩ := exists_exponent_fits_iff
  have hone : (0 : ℚ) < unitsPerOne := by exact_mod_cast unitsPerOne_pos
  have hden' : (0 : ℚ) < den := by exact_mod_cast hden
  unfold nearest
  rw [ofUnits_isFinite_iff, hfits, and_iff_right (nearestUnits_mod_spacing num den),
    nearestUnits_lt_iff hden, div_lt_iff₀ hone, div_lt_iff₀ hden', ← Nat.cast_lt (α := ℚ)]
  have hscaled : 2 * (overflow * unitsPerOne * den) = 2 ^ (e + 54) * den - 2 ^ e * den := by
    rw [← sub_mul, ← hoverflow]
    ring
  push_cast
  constructor
  · intro h
    linarith
  · intro h
    linarith

theorem ofInt_isFinite_iff {i : Int} : (ofInt i).IsFinite ↔ |(i : ℚ)| < overflow := by
  have hone : (unitsPerOne : ℚ) ≠ 0 := by exact_mod_cast unitsPerOne_pos.ne'
  unfold ofInt
  rw [nearest_isFinite_iff (by omega)]
  push_cast [Nat.cast_natAbs]
  rw [div_one, mul_div_cancel_right₀ _ hone]

theorem isFinite_ofInt {i : Int} (h : InWholeRange i) : (ofInt i).IsFinite := by
  have habs : |i| ≤ 18446744073709551616 := by
    unfold InWholeRange at h
    exact abs_le.2 ⟨by omega, by omega⟩
  have hcast : |(i : ℚ)| ≤ 18446744073709551616 := by exact_mod_cast habs
  exact ofInt_isFinite_iff.2 (hcast.trans_lt word_lt_overflow)

theorem isFinite_zero (negative : Bool) : (nearest negative 0 1).IsFinite := by
  rw [nearest_isFinite_iff (by omega), Nat.cast_zero, zero_div, zero_div]
  exact word_lt_overflow.trans' (by norm_num)

/-- Decimals with a power above 400 are infinite. -/
theorem overflow_le_value {d : Decimal} (hcoefficient : d.coefficient ≠ 0)
    (hpower : 400 < d.power) : overflow ≤ d.value := by
  obtain ⟨n, hn⟩ := Int.eq_ofNat_of_zero_le (show 0 ≤ d.power by omega)
  have hone : (1 : ℚ) ≤ d.coefficient := by exact_mod_cast Nat.pos_of_ne_zero hcoefficient
  rw [Decimal.value, hn, zpow_natCast]
  calc overflow ≤ 10 ^ n := overflow_le_pow_ten (by omega)
    _ = 1 * 10 ^ n := (one_mul _).symm
    _ ≤ d.coefficient * 10 ^ n := mul_le_mul_of_nonneg_right hone (by positivity)

theorem value_lt_overflow {d : Decimal} (hpower : d.power + d.coefficient.log2 < -400) :
    d.value < overflow := by
  have hlog : (d.coefficient : ℚ) < 2 ^ (d.coefficient.log2 + 1) := by
    exact_mod_cast Nat.lt_log2_self
  calc (d.coefficient : ℚ) * 10 ^ d.power
      ≤ 10 ^ (d.coefficient.log2 + 1) * 10 ^ d.power := by
        refine mul_le_mul_of_nonneg_right ?_ (zpow_pos (by norm_num) _).le
        exact hlog.le.trans (pow_le_pow_left₀ (by norm_num) (by norm_num) _)
    _ = 10 ^ ((d.coefficient.log2 + 1 : Nat) + d.power) := by
        rw [zpow_add₀ (by norm_num), zpow_natCast]
    _ ≤ 1 := zpow_le_one_of_nonpos₀ (by norm_num) (by omega)
    _ < overflow := word_lt_overflow.trans' (by norm_num)

theorem ofDecimal_isFinite_iff {negative : Bool} (d : Decimal) :
    (ofDecimal negative d.coefficient d.power).IsFinite ↔ d.value < overflow := by
  have hone : (unitsPerOne : ℚ) ≠ 0 := by exact_mod_cast unitsPerOne_pos.ne'
  have hcast : ∀ n : Nat, ((Nat.pow 10 n : Nat) : ℚ) = 10 ^ n := fun n => Nat.cast_pow 10 n
  unfold ofDecimal
  split
  · rename_i hcoefficient
    refine iff_of_true (isFinite_zero negative) ?_
    rw [Decimal.value, hcoefficient, Nat.cast_zero, zero_mul]
    exact word_lt_overflow.trans' (by norm_num)
  rename_i hcoefficient
  split
  · rename_i hlarge
    exact iff_of_false (not_isFinite_infinite negative)
      (not_lt.2 (overflow_le_value hcoefficient hlarge))
  split
  · rename_i hsmall
    exact iff_of_true (isFinite_zero negative) (value_lt_overflow hsmall)
  unfold Decimal.value
  split
  · rename_i hpower
    obtain ⟨n, hn⟩ := Int.eq_ofNat_of_zero_le hpower
    rw [nearest_isFinite_iff (by omega), hn, Int.toNat_natCast, zpow_natCast]
    push_cast [hcast]
    rw [div_one, mul_div_cancel_right₀ _ hone]
  · rename_i hpower
    obtain ⟨n, hn⟩ := Int.eq_ofNat_of_zero_le (show 0 ≤ -d.power by omega)
    have hden : 0 < Nat.pow 10 n := Nat.pow_pos (by omega)
    rw [hn, Int.toNat_natCast, nearest_isFinite_iff hden,
      show d.power = -(n : Int) by omega, zpow_neg, zpow_natCast, hcast]
    push_cast
    rw [div_right_comm, mul_div_cancel_right₀ _ hone, div_eq_mul_inv]

theorem nearest_add_isFinite_iff (negative : Bool) (a b : Nat) :
    (nearest negative (a + b) 1).IsFinite ↔
      |(a / unitsPerOne + b / unitsPerOne : ℚ)| < overflow := by
  rw [nearest_isFinite_iff (by omega), ← add_div,
    abs_of_nonneg (div_nonneg (add_nonneg a.cast_nonneg b.cast_nonneg) (Nat.cast_nonneg _))]
  push_cast
  rw [div_one]

theorem nearest_sub_isFinite_iff (negative : Bool) {a b : Nat} (hle : b ≤ a) :
    (nearest negative (a - b) 1).IsFinite ↔
      |(a / unitsPerOne - b / unitsPerOne : ℚ)| < overflow := by
  have hcast : (b : ℚ) ≤ a := by exact_mod_cast hle
  rw [nearest_isFinite_iff (by omega), ← sub_div,
    abs_of_nonneg (div_nonneg (sub_nonneg.2 hcast) (Nat.cast_nonneg _))]
  push_cast [hle]
  rw [div_one]

theorem add_isFinite_iff {x y : Double} :
    (add (.finite x) (.finite y)).IsFinite ↔ |x.value + y.value| < overflow := by
  obtain ⟨negative, a, ha⟩ := x
  obtain ⟨negative', b, hb⟩ := y
  unfold add
  dsimp only
  by_cases hsign : negative = negative'
  · subst hsign
    rw [if_pos rfl, nearest_add_isFinite_iff]
    unfold value
    cases negative with
    | true => simp only [if_true, ← neg_add, abs_neg]
    | false => rfl
  · rw [if_neg hsign]
    have hvalue : |value ⟨negative, a, ha⟩ + value ⟨negative', b, hb⟩| =
        |(a / unitsPerOne - b / unitsPerOne : ℚ)| := by
      unfold value
      cases negative <;> cases negative'
      · exact absurd rfl hsign
      · simp only [Bool.false_eq_true, if_false, if_true, sub_eq_add_neg]
      · simp only [if_true, Bool.false_eq_true, if_false]
        rw [abs_sub_comm, neg_add_eq_sub]
      · exact absurd rfl hsign
    rw [hvalue]
    rcases lt_trichotomy b a with hlt | rfl | hlt
    · rw [if_pos hlt, nearest_sub_isFinite_iff _ hlt.le]
    · rw [if_neg (lt_irrefl b), if_neg (lt_irrefl b), ← Nat.sub_self b,
        nearest_sub_isFinite_iff _ le_rfl]
    · rw [if_neg hlt.not_gt, if_pos hlt, nearest_sub_isFinite_iff _ hlt.le, abs_sub_comm]

theorem IsFinite.of_add {x y : Extended} (h : (x.add y).IsFinite) : x.IsFinite ∧ y.IsFinite := by
  obtain ⟨d, hd⟩ := h
  cases x with
  | finite x =>
    cases y with
    | finite y => exact ⟨⟨x, rfl⟩, ⟨y, rfl⟩⟩
    | infinite negative => cases hd
    | notANumber => cases hd
  | infinite negative =>
    cases y with
    | finite y => cases hd
    | infinite negative' =>
      simp only [add] at hd
      split at hd <;> cases hd
    | notANumber => cases hd
  | notANumber =>
    have hnone : add .notANumber y = .notANumber := by cases y <;> rfl
    rw [hnone] at hd
    cases hd

theorem not_isFinite_foldl {x : Extended} (h : ¬x.IsFinite) (xs : List Extended) :
    ¬(xs.foldl add x).IsFinite := by
  induction xs generalizing x with
  | nil => exact h
  | cons y rest ih => exact ih fun hsum => h hsum.of_add.1

/-- Doubles added from the left, from `x` on, are all finite and never reach `overflow`. -/
def StaysFinite (x : Double) (xs : List Extended) : Prop :=
  ∀ before y after, xs = before ++ y :: after → ∃ a b,
    before.foldl add (.finite x) = .finite a ∧ y = .finite b ∧ |a.value + b.value| < overflow

/-- Once a sum is not finite it stays so: a finite sum was finite at every step. -/
theorem foldl_isFinite_iff {x : Double} {xs : List Extended} :
    (xs.foldl add (.finite x)).IsFinite ↔ StaysFinite x xs := by
  induction xs generalizing x with
  | nil => exact iff_of_true (isFinite_finite x) fun before y after h => by simp at h
  | cons y rest ih =>
    rw [List.foldl_cons]
    by_cases hstep : (add (.finite x) y).IsFinite
    · obtain ⟨b, rfl⟩ := hstep.of_add.2
      have hbound := add_isFinite_iff.1 hstep
      obtain ⟨z, hz⟩ := hstep
      rw [hz, ih]
      constructor
      · intro h before w after hsplit
        cases before with
        | nil =>
          obtain ⟨rfl, -⟩ := List.cons.inj hsplit
          exact ⟨x, b, rfl, rfl, hbound⟩
        | cons first more =>
          obtain ⟨rfl, hrest⟩ := List.cons.inj hsplit
          rw [List.foldl_cons, hz]
          exact h more w after hrest
      · intro h before w after hsplit
        have hlater := h (.finite b :: before) w after (by rw [hsplit, List.cons_append])
        rwa [List.foldl_cons, hz] at hlater
    · refine iff_of_false (not_isFinite_foldl hstep rest) fun h => ?_
      obtain ⟨a, b, ha, rfl, hbound⟩ := h [] y rest rfl
      cases ha
      exact hstep (add_isFinite_iff.2 hbound)

end Extended

/-! ## Integer parts -/

theorem Double.truncate_eq (x : Double) : x.truncate = cutOff x.value := by
  have hfloor : ⌊(x.units / unitsPerOne : ℚ)⌋ = ((x.units / unitsPerOne : Nat) : ℤ) := by
    rw [Rat.floor_natCast_div_natCast]
    rfl
  have hnonneg : (0 : ℚ) ≤ x.units / unitsPerOne :=
    div_nonneg (Nat.cast_nonneg _) (Nat.cast_nonneg _)
  unfold truncate cutOff value
  cases x.negative with
  | false => simp only [Bool.false_eq_true, if_false, if_pos hnonneg, hfloor]
  | true =>
    simp only [if_true]
    rcases hnonneg.eq_or_lt with hzero | hpos
    · rw [← hzero] at hfloor ⊢
      rw [← hfloor]
      simp
    · rw [if_neg (by linarith), Int.ceil_neg, hfloor]

end PayloadMapping
