set_option autoImplicit false

/-!
# Widths of whole numbers

The ranges of the whole numbers that 64 bits hold with a sign, without one, and in either way.
-/

namespace PayloadMapping

/-- The whole numbers of 64 bits with a sign: from `-2 ^ 63` to `2 ^ 63 - 1`. -/
def InSignedRange (n : Int) : Prop := -9223372036854775808 ≤ n ∧ n < 9223372036854775808

instance (n : Int) : Decidable (InSignedRange n) := inferInstanceAs (Decidable (_ ∧ _))

/-- The whole numbers of 64 bits with or without a sign: from `-2 ^ 63` to `2 ^ 64 - 1`. -/
def InWholeRange (n : Int) : Prop := -9223372036854775808 ≤ n ∧ n < 18446744073709551616

instance (n : Int) : Decidable (InWholeRange n) := inferInstanceAs (Decidable (_ ∧ _))

theorem inWholeRange_of_inSignedRange {n : Int} (h : InSignedRange n) : InWholeRange n :=
  ⟨h.1, Int.lt_trans h.2 (by decide)⟩

/-- The natural numbers of 64 bits lie below it: `2 ^ 64`. -/
def wordLimit : Nat := 18446744073709551616

end PayloadMapping
