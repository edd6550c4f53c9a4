import Mathlib.Algebra.Order.Field.Rat
import Mathlib.Tactic.FieldSimp
import Mathlib.Tactic.Linarith
import Mathlib.Tactic.Positivity
import Mathlib.Tactic.Ring
import PayloadMapping.Number.Shortest

set_option autoImplicit false

/-!
# Decimals that stand for doubles

A decimal stands for the double in whose interval it lies. The intervals of different doubles
have no point in common, and the search for the shortest decimal always ends at a point of the
interval. So the shortest decimal says which double it was made of:
`eq_of_value_shortest_eq`.
-/

namespace PayloadMapping

def Decimal.value (d : Decimal) : ℚ := d.coefficient * (10 : ℚ) ^ d.power

namespace Double

def quarters (d : Decimal) : ℚ := 4 * unitsPerOne * d.value

/-- A number of quarters of a unit lies in the interval of the numbers that are nearer to a
double than to its neighbours. The ends count if the significand is even. -/
def InInterval (units : Nat) (t : ℚ) : Prop :=
  (4 * units - lowerGap units < t ∨
    units / spacing units % 2 = 0 ∧ (4 * units - lowerGap units : ℚ) = t) ∧
  (t < 4 * units + 2 * spacing units ∨
    units / spacing units % 2 = 0 ∧ t = 4 * units + 2 * spacing units)

theorem spacing_eq (units : Nat) : spacing units = 2 ^ (units.log2 - 52) := rfl

theorem spacing_pos (units : Nat) : 0 < spacing units := by
  rw [spacing_eq]
  positivity

theorem lowerGap_pos (units : Nat) : 0 < lowerGap units := by
  have := spacing_pos units
  unfold lowerGap
  split <;> omega

theorem spacing_le {units : Nat} (h : 0 < units) : spacing units ≤ units := by
  have hpow : 2 ^ units.log2 ≤ units := Nat.log2_self_le (by omega)
  have hle : 2 ^ (units.log2 - 52) ≤ 2 ^ units.log2 := Nat.pow_le_pow_right (by omega) (by omega)
  rw [spacing_eq]
  omega

theorem lowerGap_le {units : Nat} (h : 0 < units) : lowerGap units ≤ 2 * units := by
  have := spacing_le h
  unfold lowerGap
  split <;> omega

theorem spacing_dvd_spacing {u v : Nat} (h : u.log2 ≤ v.log2) : spacing u ∣ spacing v := by
  rw [spacing_eq, spacing_eq]
  exact pow_dvd_pow 2 (by omega)

theorem Fits.spacing_dvd {units : Nat} (h : Fits units) : spacing units ∣ units :=
  Nat.dvd_of_mod_eq_zero h.1

theorem log2_le_log2 {u v : Nat} (h : u ≤ v) : u.log2 ≤ v.log2 := by
  by_cases hu : u = 0
  · simp [hu]
  · exact (Nat.le_log2 (by omega)).2 ((Nat.log2_self_le hu).trans h)

theorem add_le_of_dvd_of_lt {s u v : Nat} (hu : s ∣ u) (hv : s ∣ v) (h : u < v) : u + s ≤ v := by
  have hle := Nat.le_of_dvd (by omega) (Nat.dvd_sub hv hu)
  omega

/-! ## Neighbours -/

theorem add_spacing_le {u v : Nat} (hu : Fits u) (hv : Fits v) (h : u < v) :
    u + spacing u ≤ v := by
  have hdvd : spacing u ∣ v := (spacing_dvd_spacing (log2_le_log2 h.le)).trans hv.spacing_dvd
  exact add_le_of_dvd_of_lt hu.spacing_dvd hdvd h

theorem lowerGap_of_power {units : Nat} (h : units = 2 ^ units.log2 ∧ 52 < units.log2) :
    lowerGap units = spacing units := if_pos h

theorem lowerGap_of_not_power {units : Nat} (h : ¬ (units = 2 ^ units.log2 ∧ 52 < units.log2)) :
    lowerGap units = 2 * spacing units := if_neg h

/-- The next double below is a gap away, of half the width below a power of two. -/
theorem add_lowerGap_le {u v : Nat} (hu : Fits u) (hv : Fits v) (h : u < v) :
    2 * u + lowerGap v ≤ 2 * v := by
  have hsucc := add_spacing_le hu hv h
  have hpow : 2 ^ v.log2 ≤ v := Nat.log2_self_le (by omega)
  have hu_lt : u < 2 ^ (u.log2 + 1) := Nat.lt_log2_self
  by_cases hpower : v = 2 ^ v.log2 ∧ 52 < v.log2
  · rw [lowerGap_of_power hpower]
    have hlog : u.log2 < v.log2 := by
      by_contra hlog
      have hle : 2 ^ v.log2 ≤ 2 ^ u.log2 := Nat.pow_le_pow_right (by omega) (by omega)
      have hself : 2 ^ v.log2 ≤ u := by
        by_cases hu0 : u = 0
        · simp [hu0] at hlog
          omega
        · exact hle.trans (Nat.log2_self_le hu0)
      omega
    -- half a gap of `v` is a gap of the binade below it
    have hhalf : spacing v = 2 * 2 ^ (v.log2 - 53) := by
      rw [spacing_eq, ← pow_succ']
      congr 1
      omega
    by_cases hnext : u.log2 + 1 = v.log2
    · have hspacing : spacing u = 2 ^ (v.log2 - 53) := by
        rw [spacing_eq]
        congr 1
        omega
      omega
    · have hdouble : 2 ^ v.log2 = 2 * 2 ^ (v.log2 - 1) := by
        rw [← pow_succ']
        congr 1
        omega
      have hle : 2 ^ (u.log2 + 1) ≤ 2 ^ (v.log2 - 1) :=
        Nat.pow_le_pow_right (by omega) (by omega)
      have hle' : 2 ^ (v.log2 - 53) ≤ 2 ^ (v.log2 - 1) :=
        Nat.pow_le_pow_right (by omega) (by omega)
      omega
  · rw [lowerGap_of_not_power hpower]
    rcases (log2_le_log2 h.le).eq_or_lt with hlog | hlog
    · -- in one binade all gaps are alike
      have hspacing : spacing v = spacing u := by rw [spacing_eq, spacing_eq, hlog]
      omega
    · have hle : 2 ^ (u.log2 + 1) ≤ 2 ^ v.log2 := Nat.pow_le_pow_right (by omega) (by omega)
      by_cases hstart : v = 2 ^ v.log2
      · have hone : spacing v = 1 := by
          have hsmall : v.log2 - 52 = 0 := by omega
          rw [spacing_eq, hsmall, pow_zero]
        omega
      · have hdvd : spacing v ∣ 2 ^ v.log2 := by
          rw [spacing_eq]
          exact pow_dvd_pow 2 (by omega)
        have hgap := add_le_of_dvd_of_lt hdvd hv.spacing_dvd (by omega)
        omega

/-- Of two neighbours not both have an even significand. -/
theorem odd_of_neighbours {u v : Nat} (hu : Fits u) (hv : Fits v) (hnext : v = u + spacing u)
    (hgap : lowerGap v = 2 * spacing u) (hueven : u / spacing u % 2 = 0)
    (hveven : v / spacing v % 2 = 0) : False := by
  have hs := spacing_pos u
  by_cases hpower : v = 2 ^ v.log2 ∧ 52 < v.log2
  · -- `v` is an even number of gaps of `u`, so `u` is an odd number of them
    rw [lowerGap_of_power hpower] at hgap
    obtain ⟨k, hk⟩ := hv.spacing_dvd
    rw [hgap] at hk
    obtain ⟨m, hm⟩ := hu.spacing_dvd
    have hmk : m + 1 = 2 * k := by
      have hmul : spacing u * (m + 1) = spacing u * (2 * k) := by
        calc spacing u * (m + 1) = spacing u * m + spacing u := by ring
          _ = v := by omega
          _ = spacing u * (2 * k) := by rw [hk]; ring
      exact Nat.eq_of_mul_eq_mul_left hs hmul
    have hdiv : u / spacing u = m := Nat.div_eq_of_eq_mul_right hs hm
    omega
  · rw [lowerGap_of_not_power hpower] at hgap
    have hspacing : spacing v = spacing u := by omega
    rw [hspacing, hnext, Nat.add_div_right _ hs] at hveven
    omega

/-- No number lies in the intervals of two doubles. -/
theorem InInterval.disjoint {u v : Nat} {t : ℚ} (hu : Fits u) (hv : Fits v) (h : u < v)
    (htu : InInterval u t) (htv : InInterval v t) : False := by
  have hsucc : (u + spacing u : ℚ) ≤ v := by exact_mod_cast add_spacing_le hu hv h
  have hpred : (2 * u + lowerGap v : ℚ) ≤ 2 * v := by exact_mod_cast add_lowerGap_le hu hv h
  obtain ⟨_, hhigh⟩ := htu
  obtain ⟨hlow, _⟩ := htv
  rcases hhigh with hhigh | ⟨hueven, hhigh⟩
  · rcases hlow with hlow | ⟨_, hlow⟩ <;> linarith
  · rcases hlow with hlow | ⟨hveven, hlow⟩
    · linarith
    · have hnext : (v : ℚ) = u + spacing u := by linarith
      have hgap : (lowerGap v : ℚ) = 2 * spacing u := by linarith
      exact odd_of_neighbours hu hv (by exact_mod_cast hnext) (by exact_mod_cast hgap) hueven
        hveven

theorem eq_of_inInterval {u v : Nat} {t : ℚ} (hu : Fits u) (hv : Fits v)
    (htu : InInterval u t) (htv : InInterval v t) : u = v := by
  rcases lt_trichotomy u v with h | h | h
  · exact (InInterval.disjoint hu hv h htu htv).elim
  · exact h
  · exact (InInterval.disjoint hv hu h htv htu).elim

/-! ## Points of decimal grids -/

theorem roundHalfEven_eq_or (num den : Nat) :
    roundHalfEven num den = num / den ∨ roundHalfEven num den = num / den + 1 := by
  unfold roundHalfEven
  split
  · exact .inl rfl
  · split
    · exact .inr rfl
    · have hparity : num / den % 2 < 2 := Nat.mod_lt _ (by omega)
      omega

theorem round_eq_or (tie : Tie) (num : Nat) {den : Nat} (hden : 0 < den) :
    tie.round num den = num / den ∨ tie.round num den = num / den + 1 := by
  cases tie with
  | even => exact roundHalfEven_eq_or num den
  | upper =>
    have hnum := Nat.div_add_mod num den
    have hmod := Nat.mod_lt num hden
    have hsum : 2 * num + den = 2 * den * (num / den) + (2 * (num % den) + den) := by
      calc 2 * num + den = 2 * (den * (num / den) + num % den) + den := by rw [hnum]
        _ = _ := by ring
    have hround : Tie.round .upper num den =
        num / den + (2 * (num % den) + den) / (2 * den) := by
      rw [Tie.round, hsum, Nat.mul_add_div (by omega)]
    have hlt : (2 * (num % den) + den) / (2 * den) < 2 := Nat.div_lt_of_lt_mul (by omega)
    rw [hround]
    generalize (2 * (num % den) + den) / (2 * den) = carry at hlt
    omega

/-- How many quarters of a unit there are between two points of a grid, times `scale`. -/
def gridStep (power : Int) : Nat :=
  4 * unitsPerOne * (if 0 ≤ power then Nat.pow 10 power.toNat else 1)

def gridScale (power : Int) : Nat := if 0 ≤ power then 1 else Nat.pow 10 (-power).toNat

theorem gridScale_pos (power : Int) : 0 < gridScale power := by
  unfold gridScale
  split
  · omega
  · exact Nat.pow_pos (by omega)

theorem unitsPerOne_pos : 0 < unitsPerOne := by decide +kernel

theorem gridStep_pos (power : Int) : 0 < gridStep power := by
  refine Nat.mul_pos (Nat.mul_pos (by omega) unitsPerOne_pos) ?_
  split
  · exact Nat.pow_pos (by omega)
  · omega

theorem quarters_mul_gridScale (c : Nat) (power : Int) :
    quarters ⟨c, power⟩ * gridScale power = c * gridStep power := by
  unfold quarters Decimal.value gridScale gridStep
  generalize unitsPerOne = one
  by_cases h : 0 ≤ power
  · obtain ⟨n, rfl⟩ := Int.eq_ofNat_of_zero_le h
    have hcast : ((Nat.pow 10 n : Nat) : ℚ) = 10 ^ n := Nat.cast_pow 10 n
    simp only [h, if_true, Int.toNat_natCast, zpow_natCast]
    push_cast [hcast]
    ring
  · obtain ⟨n, hn⟩ := Int.eq_ofNat_of_zero_le (show 0 ≤ -power by omega)
    obtain rfl : power = -n := by omega
    have hcast : ((Nat.pow 10 n : Nat) : ℚ) = 10 ^ n := Nat.cast_pow 10 n
    simp only [h, if_false, neg_neg, Int.toNat_natCast, zpow_neg, zpow_natCast, hcast]
    push_cast
    field_simp

def LowReads (units : Nat) (power : Int) (c : Nat) : Prop :=
  (4 * units - lowerGap units) * gridScale power < c * gridStep power ∨
    units / spacing units % 2 = 0 ∧
      (4 * units - lowerGap units) * gridScale power = c * gridStep power

def HighReads (units : Nat) (power : Int) (c : Nat) : Prop :=
  c * gridStep power < (4 * units + 2 * spacing units) * gridScale power ∨
    units / spacing units % 2 = 0 ∧
      c * gridStep power = (4 * units + 2 * spacing units) * gridScale power

instance (units : Nat) (power : Int) (c : Nat) : Decidable (LowReads units power c) :=
  inferInstanceAs (Decidable (_ ∨ _ ∧ _))

instance (units : Nat) (power : Int) (c : Nat) : Decidable (HighReads units power c) :=
  inferInstanceAs (Decidable (_ ∨ _ ∧ _))

theorem inInterval_of_reads {units : Nat} {power : Int} {c : Nat} (hunits : 0 < units)
    (hlow : LowReads units power c) (hhigh : HighReads units power c) :
    InInterval units (quarters ⟨c, power⟩) := by
  have hscale : (0 : ℚ) < gridScale power := by exact_mod_cast gridScale_pos power
  have hpoint := quarters_mul_gridScale c power
  have hgap := lowerGap_le hunits
  have hend : ((4 * units - lowerGap units : Nat) : ℚ) = 4 * units - lowerGap units := by
    push_cast [Nat.cast_sub (show lowerGap units ≤ 4 * units by omega)]
    ring
  constructor
  · rw [← hend]
    rcases hlow with h | ⟨heven, h⟩
    · refine .inl ((mul_lt_mul_iff_left₀ hscale).1 ?_)
      rw [hpoint]
      exact_mod_cast h
    · refine .inr ⟨heven, mul_right_cancel₀ hscale.ne' ?_⟩
      rw [hpoint]
      exact_mod_cast h
  · rcases hhigh with h | ⟨heven, h⟩
    · refine .inl ((mul_lt_mul_iff_left₀ hscale).1 ?_)
      rw [hpoint]
      exact_mod_cast h
    · refine .inr ⟨heven, mul_right_cancel₀ hscale.ne' ?_⟩
      rw [hpoint]
      exact_mod_cast h

section

variable (units : Nat) (power : Int)

def pointBelow : Nat := 4 * units * gridScale power / gridStep power

theorem gridPoint?_eq (tie : Tie) :
    gridPoint? tie units power =
      if (0 < pointBelow units power ∧ LowReads units power (pointBelow units power)) ∧
          HighReads units power (pointBelow units power + 1) then
        some (tie.round (4 * units * gridScale power) (gridStep power))
      else if 0 < pointBelow units power ∧ LowReads units power (pointBelow units power) then
        some (pointBelow units power)
      else if HighReads units power (pointBelow units power + 1) then
        some (pointBelow units power + 1)
      else none := rfl

theorem highReads_pointBelow : HighReads units power (pointBelow units power) := by
  have hspacing := Nat.mul_pos (spacing_pos units) (gridScale_pos power)
  have hle : pointBelow units power * gridStep power ≤ 4 * units * gridScale power :=
    Nat.div_mul_le_self _ _
  left
  calc pointBelow units power * gridStep power ≤ 4 * units * gridScale power := hle
    _ < 4 * units * gridScale power + 2 * (spacing units * gridScale power) := by omega
    _ = _ := by ring

theorem lowReads_pointAbove (hunits : 0 < units) :
    LowReads units power (pointBelow units power + 1) := by
  have hgap := lowerGap_pos units
  have hlt : 4 * units * gridScale power < gridStep power * (pointBelow units power + 1) :=
    Nat.lt_mul_div_succ _ (gridStep_pos power)
  left
  calc (4 * units - lowerGap units) * gridScale power
      < 4 * units * gridScale power :=
        Nat.mul_lt_mul_of_pos_right (by omega) (gridScale_pos power)
    _ < _ := hlt
    _ = _ := by ring

variable {units power}

theorem reads_of_gridPoint? {tie : Tie} {c : Nat} (hunits : 0 < units)
    (h : gridPoint? tie units power = some c) :
    0 < c ∧ LowReads units power c ∧ HighReads units power c := by
  have hhigh := highReads_pointBelow units power
  have hlow := lowReads_pointAbove units power hunits
  have hround : _ = pointBelow units power ∨ _ = pointBelow units power + 1 :=
    round_eq_or tie (4 * units * gridScale power) (gridStep_pos power)
  rw [gridPoint?_eq] at h
  split at h
  · rename_i hreads
    obtain ⟨⟨hpos, hbelow⟩, habove⟩ := hreads
    cases h
    rcases hround with hround | hround
    · rw [hround]
      exact ⟨hpos, hbelow, hhigh⟩
    · rw [hround]
      exact ⟨by omega, hlow, habove⟩
  · split at h
    · rename_i hbelow
      cases h
      exact ⟨hbelow.1, hbelow.2, hhigh⟩
    · split at h
      · rename_i habove
        cases h
        exact ⟨by omega, hlow, habove⟩
      · cases h

/-- A grid that is finer than half the gap above a double has a point in the interval. -/
theorem gridPoint?_of_fine (tie : Tie)
    (hfine : gridStep power < 2 * spacing units * gridScale power) :
    ∃ c, gridPoint? tie units power = some c := by
  have hle : pointBelow units power * gridStep power ≤ 4 * units * gridScale power :=
    Nat.div_mul_le_self _ _
  have habove : HighReads units power (pointBelow units power + 1) := by
    left
    calc (pointBelow units power + 1) * gridStep power
        = pointBelow units power * gridStep power + gridStep power := by ring
      _ < 4 * units * gridScale power + 2 * spacing units * gridScale power := by omega
      _ = _ := by ring
  rw [gridPoint?_eq]
  by_cases hbelow : 0 < pointBelow units power ∧ LowReads units power (pointBelow units power)
  · exact ⟨_, if_pos ⟨hbelow, habove⟩⟩
  · rw [if_neg fun h => hbelow h.1, if_neg hbelow]
    exact ⟨_, if_pos habove⟩

end

/-! ## The search -/

/-- The search ends at the first grid with a point, if there is one before the fuel is gone. -/
theorem gridPoint?_coarsest (tie : Tie) (units : Nat) {fuel k : Nat} {power : Int} (hk : k < fuel)
    (h : ∃ c, gridPoint? tie units (power - k) = some c) :
    gridPoint? tie units (coarsest tie units fuel power).power =
      some (coarsest tie units fuel power).coefficient := by
  induction fuel generalizing k power with
  | zero => omega
  | succ fuel ih =>
    rw [coarsest]
    cases hpoint : gridPoint? tie units power with
    | some c => exact hpoint
    | none =>
      cases k with
      | zero =>
        obtain ⟨c, hc⟩ := h
        rw [Nat.cast_zero, Int.sub_zero, hpoint] at hc
        cases hc
      | succ k =>
        refine ih (k := k) (by omega) ?_
        have hpower : power - 1 - k = power - ((k + 1 : Nat) : Int) := by omega
        rwa [hpower]

theorem pow_ten_le (n : Nat) : 10 ^ n ≤ 2 ^ (10 * (n / 3 + 1)) := by
  calc 10 ^ n ≤ 10 ^ (3 * (n / 3 + 1)) := Nat.pow_le_pow_right (by omega) (by omega)
    _ = (10 ^ 3) ^ (n / 3 + 1) := pow_mul _ _ _
    _ ≤ (2 ^ 10) ^ (n / 3 + 1) := Nat.pow_le_pow_left (by omega) _
    _ = 2 ^ (10 * (n / 3 + 1)) := (pow_mul _ _ _).symm

theorem le_pow_ten (n : Nat) : 2 ^ (29 * (n / 9)) ≤ 10 ^ n := by
  calc 2 ^ (29 * (n / 9)) = (2 ^ 29) ^ (n / 9) := pow_mul _ _ _
    _ ≤ (10 ^ 9) ^ (n / 9) := Nat.pow_le_pow_left (by omega) _
    _ = 10 ^ (9 * (n / 9)) := (pow_mul _ _ _).symm
    _ ≤ 10 ^ n := Nat.pow_le_pow_right (by omega) (by omega)

theorem exists_exponent_unitsPerOne_eq : ∃ e, e = 1074 ∧ unitsPerOne = 2 ^ e := by
  unfold unitsPerOne
  generalize 1074 = e
  exact ⟨e, rfl, rfl⟩

theorem last_grid_fine {units : Nat} (hlog : units.log2 < 2098) :
    gridStep (((units.log2 : Int) - 1073) * 30103 / 100000 + 2 - (39 : Nat)) <
      2 * spacing units *
        gridScale (((units.log2 : Int) - 1073) * 30103 / 100000 + 2 - (39 : Nat)) := by
  obtain ⟨e, he, hone⟩ := exists_exponent_unitsPerOne_eq
  rw [spacing_eq]
  generalize units.log2 = log at hlog ⊢
  generalize hpower : ((log : Int) - 1073) * 30103 / 100000 + 2 - (39 : Nat) = power
  unfold gridStep gridScale
  rw [hone]
  by_cases h : 0 ≤ power
  · obtain ⟨n, rfl⟩ := Int.eq_ofNat_of_zero_le h
    rw [if_pos h, if_pos h, Int.toNat_natCast]
    calc 4 * 2 ^ e * 10 ^ n ≤ 4 * 2 ^ e * 2 ^ (10 * (n / 3 + 1)) :=
        Nat.mul_le_mul_left _ (pow_ten_le n)
      _ = 2 ^ 2 * 2 ^ e * 2 ^ (10 * (n / 3 + 1)) := rfl
      _ = 2 ^ (2 + e + 10 * (n / 3 + 1)) := by rw [pow_add, pow_add]
      _ < 2 ^ (1 + (log - 52)) := Nat.pow_lt_pow_right (by omega) (by omega)
      _ = 2 * 2 ^ (log - 52) * 1 := by rw [pow_add, pow_one, mul_one]
  · obtain ⟨n, hn⟩ := Int.eq_ofNat_of_zero_le (show 0 ≤ -power by omega)
    rw [if_neg h, if_neg h, hn, Int.toNat_natCast]
    calc 4 * 2 ^ e * 1 = 2 ^ 2 * 2 ^ e := Nat.mul_one _
      _ = 2 ^ (2 + e) := (pow_add _ _ _).symm
      _ < 2 ^ (1 + (log - 52) + 29 * (n / 9)) := Nat.pow_lt_pow_right (by omega) (by omega)
      _ = 2 * 2 ^ (log - 52) * 2 ^ (29 * (n / 9)) := by rw [pow_add, pow_add, pow_one]
      _ ≤ 2 * 2 ^ (log - 52) * 10 ^ n := Nat.mul_le_mul_left _ (le_pow_ten n)

theorem Fits.log2_lt {units : Nat} (h : Fits units) : units.log2 < 2098 := by
  by_cases h0 : units = 0
  · simp [h0]
  · obtain ⟨_, hlt⟩ := h
    generalize 2098 = bits at hlt ⊢
    exact (Nat.log2_lt h0).2 hlt

theorem gridPoint?_shortest (tie : Tie) {x : Double} (hx : x.units ≠ 0) :
    gridPoint? tie x.units (x.shortest tie).power = some (x.shortest tie).coefficient := by
  rw [shortest, if_neg hx]
  exact gridPoint?_coarsest tie x.units (k := 39) (by omega)
    (gridPoint?_of_fine tie (last_grid_fine x.fits.log2_lt))

theorem inInterval_shortest (tie : Tie) {x : Double} (hx : x.units ≠ 0) :
    InInterval x.units (quarters (x.shortest tie)) := by
  have hunits : 0 < x.units := Nat.pos_of_ne_zero hx
  obtain ⟨_, hlow, hhigh⟩ := reads_of_gridPoint? hunits (gridPoint?_shortest tie hx)
  exact inInterval_of_reads hunits hlow hhigh

theorem value_shortest_eq_zero_iff (tie : Tie) (x : Double) :
    (x.shortest tie).value = 0 ↔ x.units = 0 := by
  constructor
  · intro h
    by_contra hx
    have hpos := (reads_of_gridPoint? (Nat.pos_of_ne_zero hx) (gridPoint?_shortest tie hx)).1
    have hpow : (10 : ℚ) ^ (x.shortest tie).power ≠ 0 := zpow_ne_zero _ (by norm_num)
    have hcoefficient : ((x.shortest tie).coefficient : ℚ) ≠ 0 := by
      exact_mod_cast Nat.pos_iff_ne_zero.1 hpos
    exact mul_ne_zero hcoefficient hpow h
  · intro h
    rw [shortest, if_pos h, Decimal.value, Nat.cast_zero, zero_mul]

theorem eq_of_value_shortest_eq (tie : Tie) {x y : Double}
    (h : (x.shortest tie).value = (y.shortest tie).value) : x.units = y.units := by
  by_cases hx : x.units = 0
  · have hy : y.units = 0 := by
      rw [← value_shortest_eq_zero_iff tie y, ← h, value_shortest_eq_zero_iff]
      exact hx
    rw [hx, hy]
  · have hy : y.units ≠ 0 := by
      rw [ne_eq, ← value_shortest_eq_zero_iff tie y, ← h, value_shortest_eq_zero_iff]
      exact hx
    have hpoint := inInterval_shortest tie hx
    rw [quarters, h] at hpoint
    exact eq_of_inInterval x.fits y.fits hpoint (inInterval_shortest tie hy)

end Double

end PayloadMapping
