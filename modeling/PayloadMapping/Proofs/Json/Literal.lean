import Mathlib.Data.List.TakeWhile
import PayloadMapping.Json.Numeral
import PayloadMapping.Proofs.Number.Text

set_option autoImplicit false

/-!
# Number literals of JSON

A literal is read in front of other text as it is read alone, as long as what follows could not
belong to it. A literal that is a whole number consists of its digits.
-/

namespace PayloadMapping.Json

/-- What follows a literal begins with a character that does not belong to it. -/
def EndsLiteral (more : List Char) : Prop :=
  ∃ c tail, more = c :: tail ∧ Numeral.isDigit c = false ∧ c ≠ '.' ∧ c ≠ 'e' ∧ c ≠ 'E'

/-- A reader finds a number at the start of texts that begin with a literal. -/
def Reads (read : Cursor → Except SyntaxError (Number × Cursor)) (literal : List Char)
    (n : Number) : Prop :=
  ∀ {more : List Char}, EndsLiteral more → ∀ place, ∃ reached,
    read ⟨literal ++ more, place⟩ = .ok (n, ⟨more, reached⟩)

/-- A reader finds doubles, and finds what a whole text holds at the start of others too. -/
def ReadsDoubles (read : Cursor → Except SyntaxError (Number × Cursor)) : Prop :=
  ∀ {literal : List Char} {place last : Place} {n : Number},
    read ⟨literal, place⟩ = .ok (n, ⟨[], last⟩) → (∃ x, n = .double x) ∧ Reads read literal n

theorem digits_append {more : List Char} (hmore : EndsLiteral more) (cs : List Char)
    (place : Place) : ∃ reached, Cursor.digits ⟨cs ++ more, place⟩ =
      (cs.takeWhile Numeral.isDigit, ⟨cs.dropWhile Numeral.isDigit ++ more, reached⟩) := by
  obtain ⟨c, tail, rfl, hc, -⟩ := hmore
  have hsplit : (cs ++ c :: tail).takeWhile Numeral.isDigit = cs.takeWhile Numeral.isDigit ∧
      (cs ++ c :: tail).dropWhile Numeral.isDigit =
        cs.dropWhile Numeral.isDigit ++ c :: tail := by
    induction cs with
    | nil => simp [hc]
    | cons d rest ih =>
      cases hd : Numeral.isDigit d <;> simp [hd, ih]
  refine ⟨⟨place.line, place.column + (cs.takeWhile Numeral.isDigit).length⟩, ?_⟩
  unfold Cursor.digits
  dsimp only
  rw [hsplit.1, hsplit.2]

theorem finishDouble_ok {negative : Bool} {significand : Nat} {exponent : Int}
    {cursor last : Cursor} {n : Number}
    (h : finishDouble negative significand exponent cursor = .ok (n, last)) :
    ∃ x, assemble? negative significand exponent = some x ∧ n = .double x ∧ cursor = last := by
  unfold finishDouble at h
  cases hfound : assemble? negative significand exponent with
  | none =>
    rw [hfound] at h
    cases h
  | some x =>
    rw [hfound] at h
    obtain ⟨rfl, rfl⟩ := Prod.mk.inj (Except.ok.inj h)
    exact ⟨x, rfl, rfl, rfl⟩

theorem readsDoubles_finishDouble (negative : Bool) (significand : Nat) (exponent : Int) :
    ReadsDoubles (finishDouble negative significand exponent) := by
  intro literal place last n h
  obtain ⟨x, hfound, rfl, hcursor⟩ := finishDouble_ok h
  obtain ⟨rfl, -⟩ := Cursor.mk.inj hcursor
  refine ⟨⟨x, rfl⟩, fun _ other => ⟨other, ?_⟩⟩
  unfold finishDouble
  rw [hfound]
  rfl

theorem readsDoubles_readExponentDigits (negative : Bool) (significand : Nat) (start : Int)
    (down : Bool) : ReadsDoubles (readExponentDigits negative significand start down) := by
  intro literal place last n h
  unfold readExponentDigits at h
  dsimp only [Cursor.digits] at h
  split at h
  · split at h <;> cases h
  rename_i hsome
  cases hvalue : exponentValue 0 0 (literal.takeWhile Numeral.isDigit) with
  | ok e =>
    rw [hvalue] at h
    obtain ⟨hx, hreads⟩ := readsDoubles_finishDouble _ _ _ h
    refine ⟨hx, fun hmore other => ?_⟩
    obtain ⟨reached, hdigits⟩ := digits_append hmore literal other
    simpa [readExponentDigits, hdigits, hsome, hvalue] using hreads hmore reached
  | error read =>
    rw [hvalue] at h
    dsimp only at h
    split at h
    · cases h
    rename_i hsmall
    obtain ⟨hx, hreads⟩ := readsDoubles_finishDouble _ _ _ h
    refine ⟨hx, fun hmore other => ?_⟩
    obtain ⟨reached, hdigits⟩ := digits_append hmore literal other
    simpa [readExponentDigits, hdigits, hsome, hvalue, hsmall] using hreads hmore reached

theorem readsDoubles_readExponent (negative : Bool) (significand : Nat) (start : Int) :
    ReadsDoubles (readExponent negative significand start) := by
  intro literal place last n h
  unfold readExponent at h
  split at h
  · rename_i rest hrest
    obtain rfl : literal = '+' :: rest := hrest
    obtain ⟨hx, hreads⟩ := readsDoubles_readExponentDigits _ _ _ _ h
    exact ⟨hx, fun hmore _ => hreads hmore _⟩
  · rename_i rest hrest
    obtain rfl : literal = '-' :: rest := hrest
    obtain ⟨hx, hreads⟩ := readsDoubles_readExponentDigits _ _ _ _ h
    exact ⟨hx, fun hmore _ => hreads hmore _⟩
  · rename_i hplus hminus
    cases literal with
    | nil => cases h
    | cons c rest =>
      obtain ⟨hx, hreads⟩ := readsDoubles_readExponentDigits _ _ _ _ h
      have hc : c ≠ '+' ∧ c ≠ '-' :=
        ⟨fun hc => hplus rest (hc ▸ rfl), fun hc => hminus rest (hc ▸ rfl)⟩
      refine ⟨hx, fun hmore other => ?_⟩
      simpa [readExponent, hc.1, hc.2] using hreads hmore other

theorem readsDoubles_readAfterFraction (negative : Bool) (significand : Nat) (exponent : Int) :
    ReadsDoubles (readAfterFraction negative significand exponent) := by
  intro literal place last n h
  unfold readAfterFraction at h
  split at h
  · rename_i rest hrest
    obtain rfl : literal = 'e' :: rest := hrest
    obtain ⟨hx, hreads⟩ := readsDoubles_readExponent _ _ _ h
    exact ⟨hx, fun hmore _ => hreads hmore _⟩
  · rename_i rest hrest
    obtain rfl : literal = 'E' :: rest := hrest
    obtain ⟨hx, hreads⟩ := readsDoubles_readExponent _ _ _ h
    exact ⟨hx, fun hmore _ => hreads hmore _⟩
  · obtain ⟨hx, hreads⟩ := readsDoubles_finishDouble _ _ _ h
    obtain ⟨_, _, _, hcursor⟩ := finishDouble_ok h
    obtain ⟨rfl, -⟩ := Cursor.mk.inj hcursor
    refine ⟨hx, fun hmore other => ?_⟩
    have hfound := hreads hmore other
    obtain ⟨c, tail, rfl, -, -, he, hE⟩ := hmore
    simpa [readAfterFraction, he, hE] using hfound

theorem readsDoubles_readFraction (negative : Bool) (significand extra : Nat) :
    ReadsDoubles (readFraction negative significand extra) := by
  intro literal place last n h
  unfold readFraction at h
  dsimp only [Cursor.digits] at h
  split at h
  · split at h <;> cases h
  rename_i hsome
  obtain ⟨hx, hreads⟩ := readsDoubles_readAfterFraction _ _ _ h
  refine ⟨hx, fun hmore other => ?_⟩
  obtain ⟨reached, hdigits⟩ := digits_append hmore literal other
  simpa [readFraction, hdigits, hsome] using hreads hmore reached

theorem readAfterWhole_ok {negative : Bool} {significand extra : Nat} {literal : List Char}
    {place last : Place} {n : Number}
    (h : readAfterWhole negative significand extra ⟨literal, place⟩ = .ok (n, ⟨[], last⟩)) :
    Reads (readAfterWhole negative significand extra) literal n ∧
      ((∃ x, n = .double x) ∨
        (literal = [] ∧ extra = 0 ∧ wholeLiteral negative significand = some n)) := by
  unfold readAfterWhole at h
  split at h
  · rename_i rest hrest
    obtain rfl : literal = '.' :: rest := hrest
    obtain ⟨hx, hreads⟩ := readsDoubles_readFraction _ _ _ h
    exact ⟨fun hmore _ => hreads hmore _, .inl hx⟩
  · rename_i rest hrest
    obtain rfl : literal = 'e' :: rest := hrest
    obtain ⟨hx, hreads⟩ := readsDoubles_readExponent _ _ _ h
    exact ⟨fun hmore _ => hreads hmore _, .inl hx⟩
  · rename_i rest hrest
    obtain rfl : literal = 'E' :: rest := hrest
    obtain ⟨hx, hreads⟩ := readsDoubles_readExponent _ _ _ h
    exact ⟨fun hmore _ => hreads hmore _, .inl hx⟩
  · split at h
    · rename_i hextra
      cases hwhole : wholeLiteral negative significand with
      | some whole =>
        simp only [hwhole, Except.ok.injEq, Prod.mk.injEq, Cursor.mk.injEq] at h
        obtain ⟨rfl, rfl, -⟩ := h
        refine ⟨fun hmore other => ⟨other, ?_⟩, .inr ⟨rfl, hextra, rfl⟩⟩
        obtain ⟨c, tail, rfl, -, hpoint, he, hE⟩ := hmore
        simp [readAfterWhole, hpoint, he, hE, hextra, hwhole]
      | none =>
        rw [hwhole] at h
        obtain ⟨hx, hreads⟩ := readsDoubles_finishDouble _ _ _ h
        obtain ⟨_, _, _, hcursor⟩ := finishDouble_ok h
        obtain ⟨rfl, -⟩ := Cursor.mk.inj hcursor
        refine ⟨fun hmore other => ?_, .inl hx⟩
        have hfound := hreads hmore other
        obtain ⟨c, tail, rfl, -, hpoint, he, hE⟩ := hmore
        simpa [readAfterWhole, hpoint, he, hE, hextra, hwhole] using hfound
    · rename_i hextra
      obtain ⟨hx, hreads⟩ := readsDoubles_finishDouble _ _ _ h
      obtain ⟨_, _, _, hcursor⟩ := finishDouble_ok h
      obtain ⟨rfl, -⟩ := Cursor.mk.inj hcursor
      refine ⟨fun hmore other => ?_, .inl hx⟩
      have hfound := hreads hmore other
      obtain ⟨c, tail, rfl, -, hpoint, he, hE⟩ := hmore
      simpa [readAfterWhole, hpoint, he, hE, hextra] using hfound

theorem gather_of_count : ∀ {digits : List Char} {significand : Nat},
    (gather significand digits).2 = digits.length →
      (gather significand digits).1 = Nat.ofDigitChars 10 digits significand
  | [], _, _ => by rw [gather, Nat.ofDigitChars_nil]
  | c :: rest, significand, h => by
    rw [gather] at h ⊢
    dsimp only at h ⊢
    split at h
    · rename_i hfits
      rw [if_pos hfits, Nat.ofDigitChars_cons, Nat.mul_comm 10]
      exact gather_of_count (Nat.succ.inj h)
    · cases h

theorem gather_count_le : ∀ (digits : List Char) (significand : Nat),
    (gather significand digits).2 ≤ digits.length
  | [], _ => le_refl _
  | c :: rest, significand => by
    rw [gather]
    dsimp only
    split
    · exact Nat.succ_le_succ (gather_count_le rest _)
    · exact Nat.zero_le _

def signed (negative : Bool) (digits : List Char) : Int :=
  if negative then -(Nat.ofDigitChars 10 digits 0 : Int) else Nat.ofDigitChars 10 digits 0

/-- An unsigned literal begins with a digit, which is zero only if no other digit follows. -/
structure IsUnsigned (literal : List Char) : Prop where
  digitFirst : ∃ d rest, literal = d :: rest ∧ Numeral.isDigit d = true
  unpadded : ∀ d rest, literal = '0' :: d :: rest → Numeral.isDigit d = false

theorem isUnsigned_of_takeWhile {literal : List Char}
    (hsome : literal.takeWhile Numeral.isDigit ≠ [])
    (hunpadded : ∀ d rest, literal.takeWhile Numeral.isDigit ≠ '0' :: d :: rest) :
    IsUnsigned literal := by
  refine ⟨?_, ?_⟩
  · cases literal with
    | nil => exact absurd rfl hsome
    | cons d rest =>
      cases hd : Numeral.isDigit d with
      | true => exact ⟨d, rest, rfl, hd⟩
      | false => exact absurd (by simp [hd]) hsome
  · rintro d rest rfl
    cases hd : Numeral.isDigit d with
    | false => rfl
    | true =>
      refine absurd ?_ (hunpadded d (rest.takeWhile Numeral.isDigit))
      simp [hd, (by decide : Numeral.isDigit '0' = true)]

theorem signed_of_wholeLiteral {negative : Bool} {literal : List Char} {n : Number}
    (hdigits : ∀ c ∈ literal, Numeral.isDigit c = true)
    (hextra : (literal.takeWhile Numeral.isDigit).length -
      (gather 0 (literal.takeWhile Numeral.isDigit)).2 = 0)
    (hwhole : wholeLiteral negative (gather 0 (literal.takeWhile Numeral.isDigit)).1 = some n) :
    (negative = true → Nat.ofDigitChars 10 literal 0 ≠ 0) ∧
      Number.ofInt? (signed negative literal) = some n := by
  rw [List.takeWhile_eq_self_iff.2 hdigits] at hextra hwhole
  have hcount : (gather 0 literal).2 = literal.length :=
    le_antisymm (gather_count_le literal 0) (Nat.sub_eq_zero_iff_le.1 hextra)
  rw [gather_of_count hcount] at hwhole
  unfold wholeLiteral at hwhole
  unfold signed
  cases negative with
  | true =>
    simp only [if_true] at hwhole ⊢
    split at hwhole
    · cases hwhole
    · rename_i hzero
      exact ⟨fun _ => hzero, hwhole⟩
  | false =>
    simp only [Bool.false_eq_true, if_false] at hwhole ⊢
    exact ⟨False.elim, hwhole⟩

theorem readUnsigned_ok {negative : Bool} {literal : List Char} {place last : Place} {n : Number}
    (h : readUnsigned negative ⟨literal, place⟩ = .ok (n, ⟨[], last⟩)) :
    Reads (readUnsigned negative) literal n ∧ IsUnsigned literal ∧
      ((∃ x, n = .double x) ∨ (∀ c ∈ literal, Numeral.isDigit c = true) ∧
        (negative = true → Nat.ofDigitChars 10 literal 0 ≠ 0) ∧
        Number.ofInt? (signed negative literal) = some n) := by
  unfold readUnsigned at h
  dsimp only [Cursor.digits] at h
  split at h
  · split at h <;> cases h
  · cases h
  rename_i hnone hpadded
  obtain ⟨hreads, hn⟩ := readAfterWhole_ok h
  refine ⟨?_, isUnsigned_of_takeWhile hnone hpadded, ?_⟩
  · intro more hmore other
    obtain ⟨reached, hdigits⟩ := digits_append hmore literal other
    obtain ⟨after, hafter⟩ := hreads hmore reached
    refine ⟨after, ?_⟩
    unfold readUnsigned
    rw [hdigits]
    dsimp only
    split
    · exact absurd ‹_› hnone
    · exact absurd ‹_› (hpadded _ _)
    · exact hafter
  · refine hn.imp id fun ⟨hrest, hextra, hwhole⟩ => ?_
    have hdigits : ∀ c ∈ literal, Numeral.isDigit c = true := List.dropWhile_eq_nil_iff.1 hrest
    exact ⟨hdigits, signed_of_wholeLiteral hdigits hextra hwhole⟩

end PayloadMapping.Json
