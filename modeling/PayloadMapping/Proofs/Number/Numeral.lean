import PayloadMapping.Proofs.Number.Text

set_option autoImplicit false

/-!
# What the numeral readers accept

The texts that stand for integers and for doubles, said without the readers. An integer is a row
of digits after an optional sign. A double is, after an optional sign, a decimal fraction with an
optional exponent, or a name of infinity or of no number.
-/

namespace PayloadMapping.Numeral

structure IsDigits (cs : List Char) : Prop where
  some : cs ≠ []
  only : ∀ c ∈ cs, isDigit c = true

inductive SpellsInteger : List Char → Int → Prop
  | unsigned {digits : List Char} : IsDigits digits →
      SpellsInteger digits (Nat.ofDigitChars 10 digits 0)
  | plus {digits : List Char} : IsDigits digits →
      SpellsInteger ('+' :: digits) (Nat.ofDigitChars 10 digits 0)
  | minus {digits : List Char} : IsDigits digits →
      SpellsInteger ('-' :: digits) (-(Nat.ofDigitChars 10 digits 0 : Int))

inductive SpellsExponent : List Char → Int → Prop
  | none : SpellsExponent [] 0
  | some {mark : Char} {cs : List Char} {e : Int} : mark = 'e' ∨ mark = 'E' →
      SpellsInteger cs e → SpellsExponent (mark :: cs) e

/-- Digits with at most one point, then an optional exponent, and the decimal that they are. -/
inductive SpellsFraction : List Char → Decimal → Prop
  | whole {digits tail : List Char} {e : Int} : IsDigits digits → SpellsExponent tail e →
      SpellsFraction (digits ++ tail) ⟨Nat.ofDigitChars 10 digits 0, e⟩
  | point {whole decimals tail : List Char} {e : Int} : IsDigits (whole ++ decimals) →
      SpellsExponent tail e →
      SpellsFraction (whole ++ '.' :: (decimals ++ tail))
        ⟨Nat.ofDigitChars 10 (whole ++ decimals) 0, e - decimals.length⟩

/-- A text without a sign, and the double that it stands for with the sign given. -/
inductive SpellsUnsigned (negative : Bool) : List Char → Extended → Prop
  | fraction {cs : List Char} {d : Decimal} : SpellsFraction cs d →
      SpellsUnsigned negative cs (.ofDecimal negative d.coefficient d.power)
  | infinity {cs : List Char} : cs.map Char.toLower = ['i', 'n', 'f'] ∨
      cs.map Char.toLower = ['i', 'n', 'f', 'i', 'n', 'i', 't', 'y'] →
      SpellsUnsigned negative cs (.infinite negative)
  | notANumber {cs : List Char} : cs.map Char.toLower = ['n', 'a', 'n'] →
      SpellsUnsigned negative cs .notANumber

inductive SpellsDouble : List Char → Extended → Prop
  | unsigned {cs : List Char} {x : Extended} : SpellsUnsigned false cs x → SpellsDouble cs x
  | plus {cs : List Char} {x : Extended} : SpellsUnsigned false cs x → SpellsDouble ('+' :: cs) x
  | minus {cs : List Char} {x : Extended} : SpellsUnsigned true cs x → SpellsDouble ('-' :: cs) x

/-! ## Integers -/

theorem natural?_eq_some_iff {cs : List Char} {n : Nat} :
    natural? 10 cs = some n ↔ IsDigits cs ∧ n = Nat.ofDigitChars 10 cs 0 := by
  constructor
  · intro h
    have hsome : cs ≠ [] := by
      rintro rfl
      cases h
    have honly := isDigit_of_natural? h
    rw [natural?_of_digits hsome honly] at h
    exact ⟨⟨hsome, honly⟩, (Option.some.inj h).symm⟩
  · rintro ⟨hdigits, rfl⟩
    exact natural?_of_digits hdigits.some hdigits.only

theorem integer?_eq_some_iff {cs : List Char} {i : Int} :
    integer? 10 cs = some i ↔ SpellsInteger cs i := by
  constructor
  · intro h
    unfold integer? at h
    split at h
    all_goals
      obtain ⟨j, hj, rfl⟩ := Option.map_eq_some_iff.1 h
      obtain ⟨n, hn, hcast⟩ := Option.bind_eq_some_iff.1 hj
      obtain rfl := Option.some.inj hcast
      obtain ⟨hdigits, rfl⟩ := natural?_eq_some_iff.1 hn
    · exact .minus hdigits
    · exact .plus hdigits
    · exact .unsigned hdigits
  · intro h
    cases h with
    | unsigned hdigits => exact integer?_of_digits hdigits.some hdigits.only
    | plus hdigits =>
      rw [integer?, natural?_eq_some_iff.2 ⟨hdigits, rfl⟩]
      rfl
    | minus hdigits =>
      rw [integer?, natural?_eq_some_iff.2 ⟨hdigits, rfl⟩]
      rfl

theorem signed64?_eq_some_iff {cs : List Char} {i : Int} :
    signed64? cs = some i ↔ SpellsInteger cs i ∧ InSignedRange i := by
  rw [← integer?_eq_some_iff]
  unfold signed64?
  cases integer? 10 cs with
  | none => simp
  | some j =>
    dsimp only
    split
    · rename_i hrange
      constructor
      · intro h
        cases h
        exact ⟨rfl, hrange⟩
      · exact And.left
    · rename_i hrange
      constructor
      · intro h
        cases h
      · rintro ⟨h, hi⟩
        cases h
        exact absurd hi hrange

/-! ## Fractions -/

theorem exponent?_eq_some_iff {cs : List Char} {e : Int} :
    exponent? cs = some e ↔ SpellsExponent cs e := by
  cases cs with
  | nil =>
    rw [exponent?]
    constructor
    · intro h
      cases h
      exact .none
    · intro h
      cases h
      rfl
  | cons mark rest =>
    rw [exponent?]
    by_cases hmark : mark = 'e' ∨ mark = 'E'
    · rw [if_pos hmark, integer?_eq_some_iff]
      exact ⟨.some hmark, fun h => by cases h; assumption⟩
    · rw [if_neg hmark]
      constructor
      · intro h
        cases h
      · intro h
        cases h
        contradiction

theorem SpellsExponent.endsDigits {tail : List Char} {e : Int} (h : SpellsExponent tail e) :
    EndsDigits tail := by
  rintro c rest rfl
  cases h with
  | some hmark _ =>
    obtain rfl | rfl := hmark
    · decide
    · decide

theorem spellsFraction_of_fraction? {cs : List Char} {d : Decimal}
    (h : fraction? cs = some (d.coefficient, d.power)) : SpellsFraction cs d := by
  have hcs := List.takeWhile_append_dropWhile (p := isDigit) (l := cs)
  unfold fraction? at h
  dsimp only at h
  split at h
  · rename_i n e hn he
    obtain ⟨hcoefficient, hpower⟩ := Prod.mk.inj (Option.some.inj h)
    obtain rfl : (⟨n, _⟩ : Decimal) = d := congrArg₂ Decimal.mk hcoefficient hpower
    clear h hcoefficient hpower
    obtain ⟨hdigits, rfl⟩ := natural?_eq_some_iff.1 hn
    have hexponent := exponent?_eq_some_iff.1 he
    clear hn he
    revert hdigits hexponent
    split
    · rename_i rest hrest
      intro hdigits hexponent
      rw [hrest, ← List.takeWhile_append_dropWhile (p := isDigit) (l := rest)] at hcs
      have hspells := SpellsFraction.point hdigits hexponent
      rwa [hcs] at hspells
    · intro hdigits hexponent
      rw [List.append_nil] at hdigits ⊢
      have hspells := SpellsFraction.whole hdigits hexponent
      rw [hcs] at hspells
      simpa using hspells
  · cases h

theorem fraction?_eq_some_iff {cs : List Char} {d : Decimal} :
    fraction? cs = some (d.coefficient, d.power) ↔ SpellsFraction cs d := by
  refine ⟨spellsFraction_of_fraction?, fun h => ?_⟩
  cases h with
  | whole hdigits hexponent =>
    exact fraction?_of_digits hdigits.some hdigits.only hexponent.endsDigits
      (exponent?_eq_some_iff.2 hexponent)
  | point hdigits hexponent =>
    obtain ⟨hwhole, hdecimals⟩ := List.forall_mem_append.1 hdigits.only
    exact fraction?_of_point _ _ hdigits.some hwhole hdecimals hexponent.endsDigits
      (exponent?_eq_some_iff.2 hexponent)

/-! ## Doubles -/

theorem SpellsFraction.head {cs : List Char} {d : Decimal} (h : SpellsFraction cs d) :
    ∃ c rest, cs = c :: rest ∧ (isDigit c = true ∨ c = '.') := by
  cases h with
  | @whole digits tail _ hdigits _ =>
    cases digits with
    | nil => exact absurd rfl hdigits.some
    | cons c rest => exact ⟨c, rest ++ tail, rfl, .inl (hdigits.only c List.mem_cons_self)⟩
  | @point whole decimals tail _ hdigits _ =>
    cases whole with
    | nil => exact ⟨'.', decimals ++ tail, rfl, .inr rfl⟩
    | cons c rest => exact ⟨c, _, rfl, .inl (hdigits.only c List.mem_cons_self)⟩

theorem toLower_of_isDigit {c : Char} (h : isDigit c = true) : c.toLower = c := by
  have hrange : '0' ≤ c ∧ c ≤ '9' := by simpa [isDigit] using h
  have hle : c.toNat ≤ '9'.toNat := hrange.2
  unfold Char.toLower
  rw [dif_neg]
  rintro ⟨hupper, _⟩
  have hge : 'A'.toNat ≤ c.toNat := hupper
  exact absurd (hge.trans hle) (by decide)

theorem head_of_name {cs rest : List Char} {first : Char}
    (h : cs.map Char.toLower = first :: rest) (hfirst : first = 'i' ∨ first = 'n') :
    ∃ c more, cs = c :: more ∧ isDigit c = false ∧ c ≠ '.' ∧ c ≠ '-' ∧ c ≠ '+' := by
  obtain ⟨c, more, rfl, hlower, _⟩ := List.map_eq_cons_iff.1 h
  refine ⟨c, more, rfl, ?_, ?_, ?_, ?_⟩
  · by_contra hdigit
    rw [Bool.not_eq_false] at hdigit
    obtain rfl := (toLower_of_isDigit hdigit).symm.trans hlower
    obtain rfl | rfl := hfirst
    · exact absurd hdigit (by decide)
    · exact absurd hdigit (by decide)
  all_goals
    rintro rfl
    rw [← hlower] at hfirst
    exact absurd hfirst (by decide)

theorem fraction?_of_name {cs rest : List Char} {first : Char}
    (h : cs.map Char.toLower = first :: rest) (hfirst : first = 'i' ∨ first = 'n') :
    fraction? cs = none := by
  cases hread : fraction? cs with
  | none => rfl
  | some read =>
    obtain ⟨coefficient, power⟩ := read
    have hspells := (fraction?_eq_some_iff (d := ⟨coefficient, power⟩)).1 hread
    obtain ⟨c, more, rfl, hdigit, hpoint, _⟩ := head_of_name h hfirst
    obtain ⟨c', more', hcs, hhead⟩ := hspells.head
    obtain ⟨rfl, _⟩ := List.cons.inj hcs
    rcases hhead with hhead | hhead
    · rw [hdigit] at hhead
      cases hhead
    · exact absurd hhead hpoint

theorem spellsUnsigned_of_special? {negative : Bool} {cs : List Char} {x : Extended}
    (h : special? negative cs = some x) : SpellsUnsigned negative cs x := by
  unfold special? at h
  dsimp only at h
  split at h
  · rename_i hname
    cases h
    exact .infinity hname
  · split at h
    · rename_i hname
      cases h
      exact .notANumber hname
    · cases h

theorem SpellsUnsigned.splitSign {negative : Bool} {cs : List Char} {x : Extended}
    (h : SpellsUnsigned negative cs x) : splitSign cs = (false, cs) := by
  have hunsigned : ∃ c rest, cs = c :: rest ∧ c ≠ '-' ∧ c ≠ '+' := by
    cases h with
    | fraction hspells =>
      obtain ⟨c, rest, rfl, hc | rfl⟩ := hspells.head
      · exact ⟨c, rest, rfl, ne_of_isDigit hc (by decide), ne_of_isDigit hc (by decide)⟩
      · exact ⟨'.', rest, rfl, by decide, by decide⟩
    | infinity hname =>
      rcases hname with hname | hname
      all_goals
        obtain ⟨c, rest, rfl, -, -, hminus, hplus⟩ := head_of_name hname (.inl rfl)
        exact ⟨c, rest, rfl, hminus, hplus⟩
    | notANumber hname =>
      obtain ⟨c, rest, rfl, -, -, hminus, hplus⟩ := head_of_name hname (.inr rfl)
      exact ⟨c, rest, rfl, hminus, hplus⟩
  obtain ⟨c, rest, rfl, hminus, hplus⟩ := hunsigned
  unfold Numeral.splitSign
  split
  · rename_i heq
    exact absurd (List.cons.inj heq).1 hminus
  · rename_i heq
    exact absurd (List.cons.inj heq).1 hplus
  · rfl

theorem double?_of_spellsUnsigned {negative : Bool} {cs rest : List Char} {x : Extended}
    (hsign : splitSign cs = (negative, rest)) (h : SpellsUnsigned negative rest x) :
    double? cs = some x := by
  unfold double?
  rw [hsign]
  dsimp only
  cases h with
  | fraction hspells => rw [fraction?_eq_some_iff.2 hspells]
  | infinity hname =>
    have hnone : fraction? rest = none := by
      rcases hname with hname | hname
      · exact fraction?_of_name hname (.inl rfl)
      · exact fraction?_of_name hname (.inl rfl)
    rw [hnone]
    exact if_pos hname
  | notANumber hname =>
    rw [fraction?_of_name hname (.inr rfl)]
    simp [special?, hname]

theorem double?_eq_some_iff {cs : List Char} {x : Extended} :
    double? cs = some x ↔ SpellsDouble cs x := by
  constructor
  · intro h
    unfold double? at h
    cases hsign : splitSign cs with
    | mk negative rest =>
      rw [hsign] at h
      dsimp only at h
      have hspells : SpellsUnsigned negative rest x := by
        split at h
        · rename_i coefficient power hread
          cases h
          exact .fraction (d := ⟨coefficient, power⟩) (fraction?_eq_some_iff.1 hread)
        · exact spellsUnsigned_of_special? h
      unfold splitSign at hsign
      split at hsign
      all_goals obtain ⟨rfl, rfl⟩ := Prod.mk.inj hsign
      · exact .minus hspells
      · exact .plus hspells
      · exact .unsigned hspells
  · intro h
    cases h with
    | unsigned hspells => exact double?_of_spellsUnsigned hspells.splitSign hspells
    | plus hspells => exact double?_of_spellsUnsigned rfl hspells
    | minus hspells => exact double?_of_spellsUnsigned rfl hspells

theorem SpellsDouble.unique {cs : List Char} {x y : Extended} (hx : SpellsDouble cs x)
    (hy : SpellsDouble cs y) : x = y :=
  Option.some.inj ((double?_eq_some_iff.2 hx).symm.trans (double?_eq_some_iff.2 hy))

/-- An integer is a fraction without a point and an exponent. -/
theorem SpellsInteger.spellsDouble {cs : List Char} {i : Int} (h : SpellsInteger cs i) :
    ∃ negative, SpellsDouble cs (.ofDecimal negative i.natAbs 0) := by
  have hwhole : ∀ {digits : List Char} (negative : Bool), IsDigits digits →
      SpellsUnsigned negative digits
        (.ofDecimal negative (Nat.ofDigitChars 10 digits 0) 0) := by
    intro digits negative hdigits
    have hspells := SpellsFraction.whole hdigits .none
    rw [List.append_nil] at hspells
    exact .fraction hspells
  cases h with
  | unsigned hdigits => exact ⟨false, .unsigned (hwhole false hdigits)⟩
  | plus hdigits => exact ⟨false, .plus (hwhole false hdigits)⟩
  | minus hdigits =>
    rw [Int.natAbs_neg]
    exact ⟨true, .minus (hwhole true hdigits)⟩

end PayloadMapping.Numeral
