import PayloadMapping.Number.Basic
import PayloadMapping.Number.Numeral
import PayloadMapping.Proofs.Number.Interval

set_option autoImplicit false

/-!
# Numbers read back from their texts

The numeral reader finds in the text of a double the number that its shortest decimal is, so
the text says which double it was: `Double.text_injective`. The text of a whole number has
neither a point nor an exponent, and `Number.text_injective` holds of both kinds together.
-/

namespace PayloadMapping

namespace Numeral

theorem isDigit_of_mem_toDigits {n : Nat} {c : Char} (h : c ∈ Nat.toDigits 10 n) :
    isDigit c = true :=
  Nat.isDigit_of_mem_toDigits (by omega) (by omega) h

theorem ne_of_isDigit {c d : Char} (h : isDigit c = true) (hd : isDigit d = false) : c ≠ d := by
  rintro rfl
  rw [h] at hd
  cases hd

theorem digitValue?_of_isDigit {c : Char} (h : isDigit c = true) :
    digitValue? 10 c = some (c.toNat - '0'.toNat) := by
  have hrange : '0' ≤ c ∧ c ≤ '9' := by simpa [isDigit] using h
  have hle : c.toNat ≤ '9'.toNat := hrange.2
  have hlt : c.toNat - '0'.toNat < 10 := by
    have hnine : '9'.toNat - '0'.toNat = 9 := by decide
    omega
  simp only [digitValue?, if_pos hrange, if_pos hlt]

theorem foldDigits?_of_digits {cs : List Char} (h : ∀ c ∈ cs, isDigit c = true) (acc : Nat) :
    foldDigits? 10 acc cs = some (Nat.ofDigitChars 10 cs acc) := by
  induction cs generalizing acc with
  | nil => rw [foldDigits?, Nat.ofDigitChars_nil]
  | cons c rest ih =>
    rw [foldDigits?, digitValue?_of_isDigit (h c List.mem_cons_self), Nat.ofDigitChars_cons]
    simp only [Nat.mul_comm acc 10]
    exact ih (fun d hd => h d (List.mem_cons_of_mem _ hd)) _

theorem natural?_of_digits {cs : List Char} (hne : cs ≠ [])
    (h : ∀ c ∈ cs, isDigit c = true) : natural? 10 cs = some (Nat.ofDigitChars 10 cs 0) := by
  cases cs with
  | nil => exact absurd rfl hne
  | cons c rest => exact foldDigits?_of_digits h 0

theorem isDigit_of_digitValue? {c : Char} {d : Nat} (h : digitValue? 10 c = some d) :
    isDigit c = true := by
  by_contra hc
  have hrange : ¬('0' ≤ c ∧ c ≤ '9') := by simpa [isDigit] using hc
  unfold digitValue? at h
  simp only [if_neg hrange] at h
  split_ifs at h <;> omega

theorem isDigit_of_foldDigits? {cs : List Char} : ∀ {acc n : Nat},
    foldDigits? 10 acc cs = some n → ∀ c ∈ cs, isDigit c = true := by
  induction cs with
  | nil => exact fun _ c hc => absurd hc List.not_mem_nil
  | cons c rest ih =>
    intro acc n h
    rw [foldDigits?] at h
    cases hvalue : digitValue? 10 c with
    | none =>
      rw [hvalue] at h
      cases h
    | some d =>
      rw [hvalue] at h
      exact List.forall_mem_cons.2 ⟨isDigit_of_digitValue? hvalue, ih h⟩

theorem isDigit_of_natural? {cs : List Char} {n : Nat} (h : natural? 10 cs = some n) :
    ∀ c ∈ cs, isDigit c = true := by
  cases cs with
  | nil => cases h
  | cons c rest => exact isDigit_of_foldDigits? h

theorem natural?_toDigits (n : Nat) : natural? 10 (Nat.toDigits 10 n) = some n := by
  rw [natural?_of_digits Nat.toDigits_ne_nil fun _ => isDigit_of_mem_toDigits,
    Nat.ofDigitChars_ten_toDigits]

theorem integer?_of_digits {cs : List Char} (hne : cs ≠ []) (h : ∀ c ∈ cs, isDigit c = true) :
    integer? 10 cs = some (Nat.ofDigitChars 10 cs 0 : Int) := by
  have hread := natural?_of_digits hne h
  cases cs with
  | nil => exact absurd rfl hne
  | cons c rest =>
    have hc := h c List.mem_cons_self
    have hminus : c ≠ '-' := ne_of_isDigit hc (by decide)
    have hplus : c ≠ '+' := ne_of_isDigit hc (by decide)
    unfold integer?
    split
    · rename_i heq
      exact absurd (List.cons.inj heq).1 hminus
    · rename_i heq
      exact absurd (List.cons.inj heq).1 hplus
    · rw [hread]
      rfl

theorem integer?_toDigits (n : Nat) : integer? 10 (Nat.toDigits 10 n) = some (n : Int) := by
  rw [integer?_of_digits Nat.toDigits_ne_nil fun _ => isDigit_of_mem_toDigits,
    Nat.ofDigitChars_ten_toDigits]

theorem integer?_minus (n : Nat) : integer? 10 ('-' :: Nat.toDigits 10 n) = some (-(n : Int)) := by
  rw [integer?, natural?_toDigits]
  rfl

theorem integer?_plus (n : Nat) : integer? 10 ('+' :: Nat.toDigits 10 n) = some (n : Int) := by
  rw [integer?, natural?_toDigits]
  rfl

theorem toList_toString (n : Int) :
    (toString n).toList = if 0 ≤ n then Nat.toDigits 10 n.natAbs
      else '-' :: Nat.toDigits 10 n.natAbs := by
  rw [Int.toString_eq_repr, Int.repr_eq_if]
  split
  · have habs : n.toNat = n.natAbs := by omega
    rw [Nat.toList_repr, habs]
  · have habs : (-n).toNat = n.natAbs := by omega
    rw [String.toList_append, Nat.toList_repr, habs]
    rfl

theorem integer?_toString (n : Int) : integer? 10 (toString n).toList = some n := by
  rw [toList_toString]
  split
  · rw [integer?_toDigits]
    congr 1
    omega
  · rw [integer?_minus]
    congr 1
    omega

/-! ## Fractions -/

/-- What may follow the digits of a fraction: nothing, or something that begins with no digit
and no point. -/
def EndsDigits (tail : List Char) : Prop :=
  ∀ c rest, tail = c :: rest → isDigit c = false ∧ c ≠ '.'

theorem takeWhile_digits {digits tail : List Char} (h : ∀ c ∈ digits, isDigit c = true)
    (htail : ∀ c rest, tail = c :: rest → isDigit c = false) :
    (digits ++ tail).takeWhile isDigit = digits ∧ (digits ++ tail).dropWhile isDigit = tail := by
  rw [List.takeWhile_append_of_pos h, List.dropWhile_append_of_pos h]
  cases tail with
  | nil => simp
  | cons c rest => simp [htail c rest rfl]

theorem fraction?_of_digits {whole tail : List Char} {e : Int} (hne : whole ≠ [])
    (hwhole : ∀ c ∈ whole, isDigit c = true) (htail : EndsDigits tail)
    (hexponent : exponent? tail = some e) :
    fraction? (whole ++ tail) = some (Nat.ofDigitChars 10 whole 0, e) := by
  obtain ⟨htake, hdrop⟩ := takeWhile_digits hwhole fun c rest h => (htail c rest h).1
  unfold fraction?
  simp only [htake, hdrop]
  cases tail with
  | nil => simp [natural?_of_digits hne hwhole, hexponent]
  | cons c rest =>
    have hpoint := (htail c rest rfl).2
    simp [hpoint, natural?_of_digits hne hwhole, hexponent]

theorem fraction?_of_point (whole decimals : List Char) {tail : List Char} {e : Int}
    (hne : whole ++ decimals ≠ []) (hwhole : ∀ c ∈ whole, isDigit c = true)
    (hdecimals : ∀ c ∈ decimals, isDigit c = true) (htail : EndsDigits tail)
    (hexponent : exponent? tail = some e) :
    fraction? (whole ++ '.' :: (decimals ++ tail)) =
      some (Nat.ofDigitChars 10 (whole ++ decimals) 0, e - decimals.length) := by
  have hpoint : ∀ c rest, '.' :: (decimals ++ tail) = c :: rest → isDigit c = false := by
    intro c rest h
    rw [← (List.cons.inj h).1]
    decide
  obtain ⟨htake, hdrop⟩ := takeWhile_digits hwhole hpoint
  obtain ⟨htake', hdrop'⟩ := takeWhile_digits hdecimals fun c rest h => (htail c rest h).1
  have hall : ∀ c ∈ whole ++ decimals, isDigit c = true :=
    List.forall_mem_append.2 ⟨hwhole, hdecimals⟩
  unfold fraction?
  simp only [htake, hdrop, htake', hdrop']
  simp [natural?_of_digits hne hall, hexponent]

end Numeral

namespace Decimal

open Numeral

variable (d : Decimal)

theorem isDigit_of_mem_digits {d : Decimal} {c : Char} (h : c ∈ d.digits) : isDigit c = true :=
  isDigit_of_mem_toDigits h

theorem digits_ne_nil : d.digits ≠ [] := Nat.toDigits_ne_nil

theorem ofDigitChars_digits : Nat.ofDigitChars 10 d.digits 0 = d.coefficient :=
  Nat.ofDigitChars_ten_toDigits

def exponentTail (plusSign : Bool) (e : Int) : List Char :=
  'e' :: (if e < 0 then ['-'] else if plusSign then ['+'] else []) ++ Nat.toDigits 10 e.natAbs

theorem exponent?_exponentTail (plusSign : Bool) (e : Int) :
    exponent? (exponentTail plusSign e) = some e := by
  have hread : integer? 10 ((if e < 0 then ['-'] else if plusSign then ['+'] else []) ++
      Nat.toDigits 10 e.natAbs) = some e := by
    split
    · rw [List.singleton_append, integer?_minus]
      congr 1
      omega
    · split
      · rw [List.singleton_append, integer?_plus]
        congr 1
        omega
      · rw [List.nil_append, integer?_toDigits]
        congr 1
        omega
  rw [exponentTail, List.cons_append, exponent?, if_pos (.inl rfl), hread]

theorem endsDigits_exponentTail (plusSign : Bool) (e : Int) :
    EndsDigits (exponentTail plusSign e) := by
  rintro c rest h
  rw [exponentTail, List.cons_append] at h
  rw [← (List.cons.inj h).1]
  decide

theorem endsDigits_nil : EndsDigits [] := fun _ _ h => by cases h

theorem fraction?_exponentText (plusSign : Bool) :
    fraction? (d.exponentText plusSign) = some (d.coefficient, d.power) := by
  have hvalue := d.ofDigitChars_digits
  have hdigits : ∀ c ∈ d.digits, isDigit c = true := fun c => isDigit_of_mem_digits
  have hexponent : d.scientificExponent = d.power + d.digits.length - 1 := rfl
  have htail := endsDigits_exponentTail plusSign d.scientificExponent
  have hread := exponent?_exponentTail plusSign d.scientificExponent
  rcases hshape : d.digits with _ | ⟨first, _ | ⟨second, rest⟩⟩
  · exact absurd hshape d.digits_ne_nil
  · have htext : d.exponentText plusSign =
        [first] ++ exponentTail plusSign d.scientificExponent := by
      rw [exponentText, hshape]
      rfl
    rw [hshape] at hvalue hdigits hexponent
    rw [htext, fraction?_of_digits (by simp) hdigits htail hread, hvalue, hexponent]
    simp
  · have htext : d.exponentText plusSign = [first] ++ '.' :: (second :: rest ++
        exponentTail plusSign d.scientificExponent) := by
      simp [exponentText, hshape, exponentTail]
    rw [hshape] at hvalue hdigits hexponent
    obtain ⟨hfirst, hrest⟩ := List.forall_mem_append.1
      (show ∀ c ∈ [first] ++ second :: rest, isDigit c = true from hdigits)
    have hjoined : Nat.ofDigitChars 10 ([first] ++ second :: rest) 0 = d.coefficient := hvalue
    rw [htext, fraction?_of_point [first] (second :: rest) (by simp) hfirst hrest htail hread,
      hjoined, hexponent]
    simp only [List.length_cons]
    congr 2
    omega

theorem isDigit_of_mem_replicate {n : Nat} {c : Char} (h : c ∈ List.replicate n '0') :
    isDigit c = true := by
  rw [List.eq_of_mem_replicate h]
  decide

def pointDigits : List Char × List Char :=
  if 0 ≤ d.power then (d.digits ++ List.replicate d.power.toNat '0', ['0'])
  else if 0 ≤ d.scientificExponent then
    (d.digits.take (d.scientificExponent.toNat + 1), d.digits.drop (d.scientificExponent.toNat + 1))
  else (['0'], List.replicate (-d.scientificExponent - 1).toNat '0' ++ d.digits)

theorem positionalText_eq :
    d.positionalText = d.pointDigits.1 ++ '.' :: d.pointDigits.2 := by
  unfold positionalText pointDigits
  dsimp only
  split
  · simp
  · split
    · rfl
    · rfl

theorem isDigit_of_mem_pointDigits :
    (∀ c ∈ d.pointDigits.1, isDigit c = true) ∧ ∀ c ∈ d.pointDigits.2, isDigit c = true := by
  have hdigits : ∀ c ∈ d.digits, isDigit c = true := fun c => isDigit_of_mem_digits
  have hzero : ∀ c ∈ ['0'], isDigit c = true := by
    intro c hc
    rw [List.mem_singleton.1 hc]
    decide
  unfold pointDigits
  split
  · exact ⟨List.forall_mem_append.2 ⟨hdigits, fun c => isDigit_of_mem_replicate⟩, hzero⟩
  · split
    · exact ⟨fun c hc => hdigits c (List.mem_of_mem_take hc),
        fun c hc => hdigits c (List.mem_of_mem_drop hc)⟩
    · exact ⟨hzero, List.forall_mem_append.2 ⟨fun c => isDigit_of_mem_replicate, hdigits⟩⟩

theorem pointDigits_fst_ne_nil : d.pointDigits.1 ≠ [] := by
  have hdigits := d.digits_ne_nil
  unfold pointDigits
  split
  · simp [hdigits]
  · split
    · simp [hdigits]
    · simp

/-- Together the digits on both sides of the point are those of the number, scaled by as many
tens as there are digits after the point. -/
theorem value_pointDigits :
    value ⟨Nat.ofDigitChars 10 (d.pointDigits.1 ++ d.pointDigits.2) 0,
      0 - d.pointDigits.2.length⟩ = d.value := by
  have hvalue := d.ofDigitChars_digits
  have hlength : 0 < d.digits.length := Nat.length_toDigits_pos
  have hexponent : d.scientificExponent = d.power + d.digits.length - 1 := rfl
  unfold pointDigits
  split
  · rename_i hpower
    obtain ⟨n, hn⟩ := Int.eq_ofNat_of_zero_le hpower
    have hscaled : Nat.ofDigitChars 10 (d.digits ++ List.replicate n '0' ++ ['0']) 0 =
        10 * (10 ^ n * d.coefficient) := by
      rw [Nat.ofDigitChars_append, Nat.ofDigitChars_append, hvalue,
        Nat.ofDigitChars_replicate_zero]
      rfl
    have hone : (0 : Int) - ['0'].length = -1 := rfl
    simp only [hn, Int.toNat_natCast, hscaled, hone]
    rw [value, value, hn, zpow_natCast, zpow_neg_one]
    push_cast
    field_simp
  · split
    · have hpower : (0 : Int) - (d.digits.drop (d.scientificExponent.toNat + 1)).length =
          d.power := by
        rw [List.length_drop]
        omega
      simp only [List.take_append_drop, hvalue, hpower]
    · have hscaled : Nat.ofDigitChars 10 (['0'] ++
          (List.replicate (-d.scientificExponent - 1).toNat '0' ++ d.digits)) 0 =
          d.coefficient := by
        rw [Nat.ofDigitChars_append, Nat.ofDigitChars_append, Nat.ofDigitChars_replicate_zero]
        exact hvalue
      have hpower : (0 : Int) - (List.replicate (-d.scientificExponent - 1).toNat '0' ++
          d.digits).length = d.power := by
        rw [List.length_append, List.length_replicate]
        omega
      simp only [hscaled, hpower]

/-- Positional text is read as the number that the decimal is. -/
theorem fraction?_positionalText :
    ∃ read : Decimal, fraction? d.positionalText = some (read.coefficient, read.power) ∧
      read.value = d.value := by
  obtain ⟨hwhole, hdecimals⟩ := d.isDigit_of_mem_pointDigits
  have hread := fraction?_of_point _ _ (by simp [d.pointDigits_fst_ne_nil]) hwhole hdecimals
    endsDigits_nil rfl
  rw [List.append_nil, ← positionalText_eq] at hread
  exact ⟨_, hread, d.value_pointDigits⟩

theorem exists_digit_cons :
    ∃ c rest, d.digits = c :: rest ∧ isDigit c = true := by
  cases hshape : d.digits with
  | nil => exact absurd hshape d.digits_ne_nil
  | cons c rest => exact ⟨c, rest, rfl, isDigit_of_mem_digits (d := d) (by simp [hshape])⟩

theorem positionalText_shape :
    ∃ c rest, d.positionalText = c :: rest ∧ isDigit c = true ∧ '.' ∈ rest ∧
      ∀ a ∈ rest, isDigit a = true ∨ a = '.' := by
  obtain ⟨hwhole, hdecimals⟩ := d.isDigit_of_mem_pointDigits
  cases hshape : d.pointDigits.1 with
  | nil => exact absurd hshape d.pointDigits_fst_ne_nil
  | cons c rest =>
    rw [hshape] at hwhole
    obtain ⟨hc, hrest⟩ := List.forall_mem_cons.1 hwhole
    refine ⟨c, rest ++ '.' :: d.pointDigits.2, by rw [positionalText_eq, hshape]; rfl, hc,
      by simp, ?_⟩
    intro a ha
    rcases List.mem_append.1 ha with ha | ha
    · exact .inl (hrest a ha)
    · rcases List.mem_cons.1 ha with rfl | ha
      · exact .inr rfl
      · exact .inl (hdecimals a ha)

theorem exponentText_shape (plusSign : Bool) :
    ∃ c rest, d.exponentText plusSign = c :: rest ∧ isDigit c = true ∧ 'e' ∈ rest ∧
      ∀ a ∈ rest, isDigit a = true ∨ a ∈ ['.', 'e', '-', '+'] := by
  obtain ⟨c, rest, hshape, hc⟩ := d.exists_digit_cons
  have hrest : ∀ a ∈ rest, isDigit a = true := fun a ha =>
    isDigit_of_mem_digits (d := d) (by simp [hshape, ha])
  have htail : ∀ a ∈ exponentTail plusSign d.scientificExponent,
      isDigit a = true ∨ a ∈ ['.', 'e', '-', '+'] := by
    intro a ha
    unfold exponentTail at ha
    rcases List.mem_append.1 ha with ha | ha
    · right
      rcases List.mem_cons.1 ha with rfl | ha
      · simp
      · split at ha
        · simp [List.mem_singleton.1 ha]
        · split at ha
          · simp [List.mem_singleton.1 ha]
          · cases ha
    · exact .inl (isDigit_of_mem_toDigits ha)
  have htext : d.exponentText plusSign = c :: (if rest = [] then [] else '.' :: rest) ++
      exponentTail plusSign d.scientificExponent := by
    cases rest <;> simp [exponentText, hshape, exponentTail]
  refine ⟨c, _, htext, hc, ?_, ?_⟩
  · exact List.mem_append_right _ (by simp [exponentTail])
  · intro a ha
    rcases List.mem_append.1 ha with ha | ha
    · split at ha
      · cases ha
      · rcases List.mem_cons.1 ha with rfl | ha
        · exact .inr (by simp)
        · exact .inl (hrest a ha)
    · exact htail a ha

end Decimal

namespace Double

open Numeral

def unsignedText (style : FloatStyle) (x : Double) : List Char :=
  if style.lowest ≤ (x.shortest style.tie).scientificExponent ∧
      (x.shortest style.tie).scientificExponent ≤ style.highest then
    (x.shortest style.tie).positionalText
  else (x.shortest style.tie).exponentText style.plusSign

theorem toList_text (style : FloatStyle) (x : Double) :
    (x.text style).toList = (if x.negative then ['-'] else []) ++ x.unsignedText style := by
  rw [text, String.toList_ofList]
  rfl

theorem fraction?_unsignedText (style : FloatStyle) (x : Double) :
    ∃ read : Decimal, fraction? (x.unsignedText style) = some (read.coefficient, read.power) ∧
      read.value = (x.shortest style.tie).value := by
  unfold unsignedText
  split
  · exact Decimal.fraction?_positionalText _
  · exact ⟨x.shortest style.tie, Decimal.fraction?_exponentText _ _, rfl⟩

theorem unsignedText_shape (style : FloatStyle) (x : Double) :
    ∃ c rest, x.unsignedText style = c :: rest ∧ isDigit c = true ∧ ('.' ∈ rest ∨ 'e' ∈ rest) ∧
      ∀ a ∈ rest, isDigit a = true ∨ a ∈ ['.', 'e', '-', '+'] := by
  unfold unsignedText
  split
  · obtain ⟨c, rest, htext, hc, hpoint, hrest⟩ :=
      Decimal.positionalText_shape (x.shortest style.tie)
    refine ⟨c, rest, htext, hc, .inl hpoint, fun a ha => ?_⟩
    exact (hrest a ha).imp_right fun h => by simp [h]
  · obtain ⟨c, rest, htext, hc, hexponent, hrest⟩ :=
      Decimal.exponentText_shape (x.shortest style.tie) style.plusSign
    exact ⟨c, rest, htext, hc, .inr hexponent, hrest⟩

theorem text_injective (style : FloatStyle) {x y : Double} (h : x.text style = y.text style) :
    x = y := by
  have hchars := congrArg String.toList h
  rw [toList_text, toList_text] at hchars
  obtain ⟨c, rest, hx, hc, -⟩ := unsignedText_shape style x
  obtain ⟨c', rest', hy, hc', -⟩ := unsignedText_shape style y
  have hminus : c ≠ '-' := ne_of_isDigit hc (by decide)
  have hminus' : c' ≠ '-' := ne_of_isDigit hc' (by decide)
  have hsign : x.negative = y.negative := by
    cases hxn : x.negative <;> cases hyn : y.negative
    · rfl
    · simp [hxn, hyn, hx, hminus] at hchars
    · simp [hxn, hyn, hy, hminus'.symm] at hchars
    · rfl
  rw [hsign] at hchars
  obtain ⟨read, hread, hvalue⟩ := fraction?_unsignedText style x
  obtain ⟨read', hread', hvalue'⟩ := fraction?_unsignedText style y
  rw [List.append_cancel_left hchars, hread'] at hread
  have hsame : read'.value = read.value := by
    obtain ⟨hcoefficient, hpower⟩ := Prod.mk.inj (Option.some.inj hread)
    rw [Decimal.value, Decimal.value, hcoefficient, hpower]
  have hunits : x.units = y.units :=
    eq_of_value_shortest_eq style.tie (by rw [← hvalue, ← hvalue', hsame])
  cases x
  cases y
  cases hsign
  cases hunits
  rfl

end Double

namespace Number

open Numeral

def IsTextChar (c : Char) : Prop := isDigit c = true ∨ c ∈ ['.', 'e', '-', '+']

theorem text_shape (n : Number) :
    ∃ c rest, n.text.toList = c :: rest ∧ (isDigit c = true ∨ c = '-') ∧
      ∀ a ∈ n.text.toList, IsTextChar a := by
  cases n with
  | whole n inRange =>
    have hdigits : ∀ a ∈ Nat.toDigits 10 n.natAbs, IsTextChar a := fun a ha =>
      .inl (isDigit_of_mem_toDigits ha)
    rw [text, toList_toString]
    split
    · cases hshape : Nat.toDigits 10 n.natAbs with
      | nil => exact absurd hshape Nat.toDigits_ne_nil
      | cons c rest =>
        rw [hshape] at hdigits
        refine ⟨c, rest, rfl, .inl (isDigit_of_mem_toDigits (n := n.natAbs) ?_), hdigits⟩
        simp [hshape]
    · exact ⟨'-', _, rfl, .inr rfl, List.forall_mem_cons.2 ⟨.inr (by simp), hdigits⟩⟩
  | double x =>
    obtain ⟨c, rest, htext, hc, -, hrest⟩ := Double.unsignedText_shape .json x
    have hchars : ∀ a ∈ c :: rest, IsTextChar a := List.forall_mem_cons.2 ⟨.inl hc, hrest⟩
    rw [text, Double.toList_text, htext]
    split
    · exact ⟨'-', c :: rest, rfl, .inr rfl, List.forall_mem_cons.2 ⟨.inr (by simp), hchars⟩⟩
    · exact ⟨c, rest, rfl, .inl hc, hchars⟩

theorem text_whole_ne_text_double (n : Int) (x : Double) : toString n ≠ x.text .json := by
  intro h
  have hdouble : '.' ∈ (x.text .json).toList ∨ 'e' ∈ (x.text .json).toList := by
    obtain ⟨c, rest, htext, -, hmark, -⟩ := Double.unsignedText_shape .json x
    rw [Double.toList_text, htext]
    exact hmark.imp (fun h => by simp [h]) (fun h => by simp [h])
  have hwhole : ∀ c ∈ (toString n).toList, isDigit c = true ∨ c = '-' := by
    intro c hc
    rw [toList_toString] at hc
    split at hc
    · exact .inl (isDigit_of_mem_toDigits hc)
    · exact (List.mem_cons.1 hc).symm.imp_left isDigit_of_mem_toDigits
  rw [← h] at hdouble
  rcases hdouble with hmark | hmark
  · exact absurd (hwhole _ hmark) (by decide)
  · exact absurd (hwhole _ hmark) (by decide)

theorem text_injective {m n : Number} (h : m.text = n.text) : m = n := by
  cases m with
  | whole m _ =>
    cases n with
    | whole n _ =>
      have hread := integer?_toString m
      rw [show toString m = toString n from h, integer?_toString n] at hread
      cases hread
      rfl
    | double y => exact absurd h (text_whole_ne_text_double m y)
  | double x =>
    cases n with
    | whole n _ => exact absurd h.symm (text_whole_ne_text_double n x)
    | double y => rw [Double.text_injective .json h]

end Number

end PayloadMapping
