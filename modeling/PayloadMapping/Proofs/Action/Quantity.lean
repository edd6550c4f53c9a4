import PayloadMapping.Action.Quantity
import PayloadMapping.Proofs.Number.Numeral
import PayloadMapping.Proofs.Number.Rounding

set_option autoImplicit false

/-!
# Quantities and their totals

Which values count as quantities, said without the reader, and what a total of quantities is. It
is an integer as long as all its terms are integers and no sum from the left leaves 64 bits, and
then exact. As a double it is finite as long as no step leaves the range of the doubles.
-/

namespace PayloadMapping

/-- A text that spells an integer of 64 bits, blanks at its ends apart. -/
def IsIntegerText (text : String) (n : Int) : Prop :=
  Numeral.SpellsInteger (Text.trimList text.toList) n ∧ InSignedRange n

def IsDoubleText (text : String) (x : Extended) : Prop :=
  Numeral.SpellsDouble (Text.trimList text.toList) x

namespace Value

/-- What a value counts as in a calculation. -/
inductive CountsAs : Value → Quantity → Prop
  | whole {n : Int} {inRange : InWholeRange n} : InSignedRange n →
      CountsAs (.number (.whole n inRange)) (.whole n)
  | beyond {n : Int} {inRange : InWholeRange n} : ¬InSignedRange n →
      CountsAs (.number (.whole n inRange)) (.real (.ofInt n))
  | double {x : Double} : CountsAs (.number (.double x)) (.real (.finite x))
  | wholeText {text : String} {n : Int} : IsIntegerText text n →
      CountsAs (.string text) (.whole n)
  | doubleText {text : String} {x : Extended} : (∀ n, ¬IsIntegerText text n) →
      IsDoubleText text x → CountsAs (.string text) (.real x)

inductive IsNumeric : Value → Prop
  | number (n : Number) : IsNumeric (.number n)
  | text {text : String} {x : Extended} : IsDoubleText text x → IsNumeric (.string text)

end Value

theorem not_isIntegerText {text : String}
    (h : Numeral.signed64? (Text.trimList text.toList) = none) (n : Int) :
    ¬IsIntegerText text n := by
  intro hn
  rw [Numeral.signed64?_eq_some_iff.2 hn] at h
  cases h

namespace Quantity

theorem ofText?_eq_some_iff {text : String} {q : Quantity} :
    ofText? text = some q ↔ Value.CountsAs (.string text) q := by
  unfold ofText?
  cases hwhole : Numeral.signed64? (Text.trimList text.toList) with
  | some n =>
    have htext : IsIntegerText text n := Numeral.signed64?_eq_some_iff.1 hwhole
    constructor
    · intro h
      cases h
      exact .wholeText htext
    · intro h
      cases h with
      | wholeText h =>
        rw [Numeral.signed64?_eq_some_iff.2 h] at hwhole
        rw [Option.some.inj hwhole]
      | doubleText h _ => exact absurd htext (h n)
  | none =>
    have htext : ∀ n, ¬IsIntegerText text n := not_isIntegerText hwhole
    rw [Option.map_eq_some_iff]
    constructor
    · rintro ⟨x, hx, rfl⟩
      exact .doubleText htext (Numeral.double?_eq_some_iff.1 hx)
    · intro h
      cases h with
      | wholeText h => exact absurd h (htext _)
      | doubleText _ h => exact ⟨_, Numeral.double?_eq_some_iff.2 h, rfl⟩

theorem ofNumber_eq_iff {n : Number} {q : Quantity} :
    ofNumber n = q ↔ Value.CountsAs (.number n) q := by
  cases n with
  | whole n inRange =>
    by_cases hsigned : InSignedRange n
    · have hread : ofNumber (.whole n inRange) = .whole n := by
        simp only [ofNumber, Number.toSigned?, if_pos hsigned]
      rw [hread]
      constructor
      · rintro rfl
        exact .whole hsigned
      · intro h
        cases h with
        | whole _ => rfl
        | beyond h => exact absurd hsigned h
    · have hread : ofNumber (.whole n inRange) = .real (.ofInt n) := by
        simp only [ofNumber, Number.toSigned?, if_neg hsigned, Number.toExtended]
      rw [hread]
      constructor
      · rintro rfl
        exact .beyond hsigned
      · intro h
        cases h with
        | whole h => exact absurd h hsigned
        | beyond _ => rfl
  | double x =>
    constructor
    · rintro rfl
      exact .double
    · intro h
      cases h
      rfl

theorem ofValue_eq_ok_iff {action : String} {v : Value} {q : Quantity} :
    ofValue action v = .ok q ↔ v.CountsAs q := by
  unfold ofValue
  split
  · rw [← ofNumber_eq_iff, Except.ok.injEq]
  · rename_i text
    rw [← ofText?_eq_some_iff]
    split
    · rename_i found hfound
      rw [hfound, Except.ok.injEq, Option.some.injEq]
    · rename_i hnone
      rw [hnone]
      exact iff_of_false (fun h => by cases h) (fun h => by cases h)
  · rename_i hnumber hstring
    refine iff_of_false (fun h => by cases h) fun h => ?_
    cases h with
    | whole _ | beyond _ | double => exact hnumber _ rfl
    | wholeText _ | doubleText _ _ => exact hstring _ rfl

end Quantity

theorem Value.CountsAs.unique {v : Value} {q q' : Quantity} (h : v.CountsAs q)
    (h' : v.CountsAs q') : q = q' := by
  have hread := (Quantity.ofValue_eq_ok_iff.2 h : Quantity.ofValue "" v = .ok q)
  rw [Quantity.ofValue_eq_ok_iff.2 h'] at hread
  exact (Except.ok.inj hread).symm

theorem Value.isNumeric_iff {v : Value} : v.IsNumeric ↔ ∃ q, v.CountsAs q := by
  constructor
  · rintro (n | @⟨text, x, hx⟩)
    · exact ⟨_, Quantity.ofNumber_eq_iff.1 rfl⟩
    · by_cases hwhole : ∃ n, IsIntegerText text n
      · obtain ⟨n, hn⟩ := hwhole
        exact ⟨_, .wholeText hn⟩
      · exact ⟨_, .doubleText (not_exists.1 hwhole) hx⟩
  · rintro ⟨q, h⟩
    cases h with
    | whole _ | beyond _ | double => exact .number _
    | wholeText h =>
      obtain ⟨_, hx⟩ := h.1.spellsDouble
      exact .text hx
    | doubleText _ h => exact .text h

namespace Value

theorem ofExtended_cases (x : Extended) :
    (∃ d, ofExtended x = .number (.double d)) ∧ x.IsFinite ∨
      ofExtended x = .null ∧ ¬x.IsFinite := by
  cases x with
  | finite d => exact .inl ⟨⟨d, rfl⟩, Extended.isFinite_finite d⟩
  | infinite negative => exact .inr ⟨rfl, Extended.not_isFinite_infinite negative⟩
  | notANumber => exact .inr ⟨rfl, Extended.not_isFinite_notANumber⟩

theorem ofExtended_eq_null_iff {x : Extended} : ofExtended x = .null ↔ ¬x.IsFinite := by
  rcases ofExtended_cases x with ⟨⟨d, hd⟩, hx⟩ | hnull
  · rw [hd]
    exact iff_of_false nofun (not_not.2 hx)
  · exact iff_of_true hnull.1 hnull.2

end Value

/-! ## Totals of integers -/

/-- No sum from the left leaves 64 bits. -/
def StaysInRange (terms : List Int) : Prop := ∀ before, before <+: terms → InSignedRange before.sum

def gains (terms : List Int) : Int := (terms.filter (0 ≤ ·)).sum

def losses (terms : List Int) : Int := (terms.filter (· < 0)).sum

theorem gains_add_losses (terms : List Int) : gains terms + losses terms = terms.sum := by
  unfold gains losses
  induction terms with
  | nil => rfl
  | cons t rest ih =>
    rw [List.sum_cons, ← ih]
    by_cases ht : 0 ≤ t
    · simp [ht, not_lt.2 ht, add_assoc]
    · simp [ht, not_le.1 ht, add_left_comm]

theorem gains_nonneg (terms : List Int) : 0 ≤ gains terms :=
  List.sum_nonneg fun t ht => by simpa using (List.mem_filter.1 ht).2

theorem losses_nonpos (terms : List Int) : losses terms ≤ 0 := by
  unfold losses
  induction terms with
  | nil => exact le_refl 0
  | cons t rest ih =>
    by_cases ht : t < 0
    · simp only [ht, decide_true, List.filter_cons_of_pos, List.sum_cons]
      omega
    · simpa [ht] using ih

theorem gains_append (terms more : List Int) :
    gains (terms ++ more) = gains terms + gains more := by
  simp [gains]

theorem losses_append (terms more : List Int) :
    losses (terms ++ more) = losses terms + losses more := by
  simp [losses]

/-- In every order the sums stay in the range if the gains alone and the losses alone do. -/
theorem staysInRange_perm_iff {terms : List Int} :
    (∀ terms', terms'.Perm terms → StaysInRange terms') ↔
      InSignedRange (gains terms) ∧ InSignedRange (losses terms) := by
  have hsplit : (terms.filter (0 ≤ ·) ++ terms.filter (· < 0)).Perm terms := by
    have hperm := List.filter_append_perm (fun t : Int => decide (0 ≤ t)) terms
    simpa only [← decide_not, not_le] using hperm
  constructor
  · -- two of the orders: all gains first, and all losses first
    intro h
    exact ⟨h _ hsplit _ (List.prefix_append _ _),
      h _ (List.perm_append_comm.trans hsplit) _ (List.prefix_append _ _)⟩
  · rintro ⟨hgains, hlosses⟩ terms' hperm before ⟨after, rfl⟩
    have htotal : gains (before ++ after) = gains terms := (hperm.filter _).sum_eq
    have htotal' : losses (before ++ after) = losses terms := (hperm.filter _).sum_eq
    rw [gains_append] at htotal
    rw [losses_append] at htotal'
    have hbefore := gains_add_losses before
    have := gains_nonneg before
    have := gains_nonneg after
    have := losses_nonpos before
    have := losses_nonpos after
    unfold InSignedRange at hgains hlosses ⊢
    omega

namespace Total

theorem whole_add_real (total : Total) (x : Extended) : (total.add (.real x)).whole = none := by
  unfold add
  cases total.whole <;> rfl

theorem whole_add_whole {total : Total} {sum : Int} (h : total.whole = some sum) (n : Int) :
    (total.add (.whole n)).whole = fit? (sum + n) := by
  unfold add
  rw [h]

theorem whole_foldl_none {total : Total} (h : total.whole = none) (qs : List Quantity) :
    (qs.foldl add total).whole = none := by
  induction qs generalizing total with
  | nil => exact h
  | cons q rest ih =>
    refine ih ?_
    unfold add
    rw [h]

theorem forall_prefix_cons_iff {start n : Int} {terms : List Int} :
    (∀ before, before <+: n :: terms → InSignedRange (start + before.sum)) ↔
      InSignedRange start ∧
        ∀ before, before <+: terms → InSignedRange (start + n + before.sum) := by
  constructor
  · intro h
    refine ⟨?_, fun before hbefore => ?_⟩
    · simpa using h [] List.nil_prefix
    · rw [add_assoc, ← List.sum_cons]
      exact h _ (List.cons_prefix_cons.2 ⟨rfl, hbefore⟩)
  · rintro ⟨hstart, h⟩ before hbefore
    rcases List.prefix_cons_iff.1 hbefore with rfl | ⟨more, rfl, hmore⟩
    · simpa using hstart
    · rw [List.sum_cons, ← add_assoc]
      exact h more hmore

/-- The whole total is the exact sum, as long as every sum on the way fits. -/
theorem whole_foldl_iff {qs : List Quantity} {total : Total} {start sum : Int}
    (hstart : total.whole = some start) (hrange : InSignedRange start) :
    (qs.foldl add total).whole = some sum ↔ ∃ terms : List Int,
      qs = terms.map .whole ∧ sum = start + terms.sum ∧
        ∀ before, before <+: terms → InSignedRange (start + before.sum) := by
  -- from any sum so far: a real term, or a sum out of the range, ends the whole total for good
  induction qs generalizing total start with
  | nil =>
    rw [List.foldl_nil, hstart]
    constructor
    · intro h
      obtain rfl := Option.some.inj h
      refine ⟨[], rfl, by simp, fun before hbefore => ?_⟩
      rw [List.prefix_nil.1 hbefore]
      simpa using hrange
    · rintro ⟨terms, hterms, rfl, -⟩
      rw [List.map_eq_nil_iff.1 hterms.symm]
      simp
  | cons q rest ih =>
    rw [List.foldl_cons]
    cases q with
    | real x =>
      rw [whole_foldl_none (whole_add_real total x)]
      refine iff_of_false nofun ?_
      rintro ⟨terms, hterms, -⟩
      cases terms <;> cases hterms
    | whole n =>
      have hnext := whole_add_whole hstart n
      by_cases hfits : InSignedRange (start + n)
      · rw [fit?, if_pos hfits] at hnext
        rw [ih hnext hfits]
        constructor
        · rintro ⟨terms, rfl, rfl, hbefore⟩
          refine ⟨n :: terms, rfl, ?_, forall_prefix_cons_iff.2 ⟨hrange, hbefore⟩⟩
          rw [List.sum_cons, add_assoc]
        · rintro ⟨terms, hterms, rfl, hbefore⟩
          cases terms with
          | nil => cases hterms
          | cons m terms =>
            cases hterms
            refine ⟨terms, rfl, ?_, (forall_prefix_cons_iff.1 hbefore).2⟩
            rw [List.sum_cons, add_assoc]
      · rw [fit?, if_neg hfits] at hnext
        rw [whole_foldl_none hnext]
        refine iff_of_false nofun ?_
        rintro ⟨terms, hterms, -, hbefore⟩
        cases terms with
        | nil => cases hterms
        | cons m terms =>
          cases hterms
          have hfirst := (forall_prefix_cons_iff.1 hbefore).2 [] List.nil_prefix
          rw [List.sum_nil, add_zero] at hfirst
          exact hfits hfirst

theorem whole_total_iff {qs : List Quantity} {sum : Int} :
    (qs.foldl add zero).whole = some sum ↔ ∃ terms : List Int,
      qs = terms.map .whole ∧ sum = terms.sum ∧ StaysInRange terms := by
  rw [whole_foldl_iff (show zero.whole = some 0 from rfl) (by decide)]
  simp only [zero_add, StaysInRange]

/-! ## The value of a total -/

theorem real_foldl (total : Total) (qs : List Quantity) :
    (qs.foldl add total).real = (qs.map Quantity.toExtended).foldl Extended.add total.real := by
  induction qs generalizing total with
  | nil => rfl
  | cons q rest ih => exact ih (total.add q)

theorem value_number_or_null (total : Total) :
    (∃ n, total.value = .number n) ∨ total.value = .null := by
  unfold value
  split
  · unfold Value.ofInt
    split
    · exact .inl ⟨_, rfl⟩
    · exact .inr rfl
  · unfold Value.ofExtended
    split
    · exact .inl ⟨_, rfl⟩
    · exact .inr rfl

theorem value_eq_whole_iff {total : Total} {n : Int} {inRange : InWholeRange n} :
    total.value = .number (.whole n inRange) ↔ total.whole = some n := by
  obtain ⟨whole, real⟩ := total
  cases whole with
  | none => cases real <;> simp [value, Value.ofExtended]
  | some m =>
    by_cases hm : InWholeRange m
    · simp [value, Value.ofInt, Number.ofInt?, hm]
    · refine iff_of_false (by simp [value, Value.ofInt, Number.ofInt?, hm]) ?_
      rintro ⟨⟩
      exact hm inRange

theorem value_of_staysInRange {terms : List Int} (h : StaysInRange terms) :
    ∃ inRange,
      ((terms.map Quantity.whole).foldl add zero).value = .number (.whole terms.sum inRange) := by
  have hwhole := whole_total_iff.2 ⟨terms, rfl, rfl, h⟩
  have hsum : InSignedRange terms.sum := h terms List.prefix_rfl
  exact ⟨inWholeRange_of_inSignedRange hsum, value_eq_whole_iff.2 hwhole⟩

theorem value_of_leaves {qs : List Quantity}
    (h : ∀ terms, qs = terms.map .whole → ¬StaysInRange terms) :
    (qs.foldl add zero).value =
      .ofExtended ((qs.map Quantity.toExtended).foldl .add (.finite .zero)) := by
  have hnone : (qs.foldl add zero).whole = none := by
    rw [Option.eq_none_iff_forall_ne_some]
    intro sum hsum
    obtain ⟨terms, hterms, -, hstays⟩ := whole_total_iff.1 hsum
    exact h terms hterms hstays
  have hreal := real_foldl zero qs
  unfold value
  rw [hnone, hreal]
  rfl

theorem value_eq_null_iff {qs : List Quantity} :
    (qs.foldl add zero).value = .null ↔
      (∀ terms, qs = terms.map .whole → ¬StaysInRange terms) ∧
        ¬Extended.StaysFinite .zero (qs.map Quantity.toExtended) := by
  by_cases h : ∀ terms, qs = terms.map .whole → ¬StaysInRange terms
  · rw [value_of_leaves h, Value.ofExtended_eq_null_iff, ← Extended.foldl_isFinite_iff]
    exact (and_iff_right h).symm
  · refine iff_of_false (fun hnull => ?_) fun hboth => h hboth.1
    push Not at h
    obtain ⟨terms, rfl, hstays⟩ := h
    obtain ⟨inRange, hvalue⟩ := value_of_staysInRange hstays
    rw [hvalue] at hnull
    cases hnull

end Total

end PayloadMapping
