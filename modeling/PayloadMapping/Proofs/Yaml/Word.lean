import Mathlib.Data.Bool.AllAny
import PayloadMapping.Decode.Yaml
import PayloadMapping.Proofs.Json.Shared

set_option autoImplicit false

/-!
# Words of JSON as plain scalars of YAML

The words of the texts that JSON and YAML share, number literals among them, stand for the same
values as plain scalars.
-/

namespace PayloadMapping.Numeral

def IsLiteralChar (c : Char) : Prop :=
  isDigit c = true ∨ c = '.' ∨ c = 'e' ∨ c = 'E' ∨ c = '+' ∨ c = '-'

instance (c : Char) : Decidable (IsLiteralChar c) := inferInstanceAs (Decidable (_ ∨ _))

theorem isLiteralChar_of_integer? {cs : List Char} {i : Int} (h : integer? 10 cs = some i) :
    ∀ c ∈ cs, IsLiteralChar c := by
  have hdigits : ∀ {cs : List Char} (f : Nat → Option Int), (natural? 10 cs).bind f = some i →
      ∀ c ∈ cs, IsLiteralChar c := by
    intro cs f hf c hc
    obtain ⟨n, hn, -⟩ := Option.bind_eq_some_iff.1 hf
    exact .inl (isDigit_of_natural? hn c hc)
  unfold integer? at h
  split at h
  · exact List.forall_mem_cons.2 ⟨by simp [IsLiteralChar], hdigits _ (by simpa using h)⟩
  · exact List.forall_mem_cons.2 ⟨by simp [IsLiteralChar], hdigits _ (by simpa using h)⟩
  · exact hdigits _ (by simpa using h)

theorem isLiteralChar_of_exponent? {cs : List Char} {e : Int} (h : exponent? cs = some e) :
    ∀ c ∈ cs, IsLiteralChar c := by
  cases cs with
  | nil => exact fun c hc => absurd hc List.not_mem_nil
  | cons c rest =>
    rw [exponent?] at h
    split at h
    · rename_i hc
      refine List.forall_mem_cons.2 ⟨?_, isLiteralChar_of_integer? h⟩
      obtain rfl | rfl := hc
      all_goals simp [IsLiteralChar]
    · cases h

theorem isLiteralChar_of_takeWhile {cs : List Char} : ∀ c ∈ cs.takeWhile isDigit, IsLiteralChar c :=
  fun c hc => .inl (List.all_eq_true.1 List.all_takeWhile c hc)

theorem isLiteralChar_of_fraction? {cs : List Char} {r : Nat × Int} (h : fraction? cs = some r) :
    ∀ c ∈ cs, IsLiteralChar c := by
  intro c hc
  rw [← List.takeWhile_append_dropWhile (p := isDigit) (l := cs)] at hc
  obtain hc | hc := List.mem_append.1 hc
  · exact isLiteralChar_of_takeWhile c hc
  unfold fraction? at h
  dsimp only at h
  cases hafter : cs.dropWhile isDigit with
  | nil =>
    rw [hafter] at hc
    exact absurd hc List.not_mem_nil
  | cons d rest =>
    rw [hafter] at h hc
    by_cases hd : d = '.'
    · subst hd
      obtain rfl | hc := List.mem_cons.1 hc
      · simp [IsLiteralChar]
      rw [← List.takeWhile_append_dropWhile (p := isDigit) (l := rest)] at hc
      obtain hc | hc := List.mem_append.1 hc
      · exact isLiteralChar_of_takeWhile c hc
      split at h
      · exact isLiteralChar_of_exponent? ‹_› c hc
      · cases h
    · simp only [List.cons.injEq, hd, false_and, imp_self, implies_true, List.append_nil,
        List.length_nil, Nat.cast_zero, sub_zero] at h
      split at h
      · exact isLiteralChar_of_exponent? ‹_› c hc
      · cases h

theorem isLiteralChar_of_splitSign {cs rest : List Char} {negative : Bool}
    (h : splitSign cs = (negative, rest)) (hrest : ∀ c ∈ rest, IsLiteralChar c) :
    ∀ c ∈ cs, IsLiteralChar c := by
  unfold splitSign at h
  split at h
  all_goals obtain ⟨-, rfl⟩ := Prod.mk.inj h
  · exact List.forall_mem_cons.2 ⟨by simp [IsLiteralChar], hrest⟩
  · exact List.forall_mem_cons.2 ⟨by simp [IsLiteralChar], hrest⟩
  · exact hrest

theorem isLiteralChar_of_double? {cs : List Char} {x : Double}
    (h : double? cs = some (.finite x)) : ∀ c ∈ cs, IsLiteralChar c := by
  unfold double? at h
  cases hsplit : splitSign cs with
  | mk negative rest =>
    rw [hsplit] at h
    dsimp only at h
    cases hfound : fraction? rest with
    | some r => exact isLiteralChar_of_splitSign hsplit (isLiteralChar_of_fraction? hfound)
    | none =>
      rw [hfound] at h
      unfold special? at h
      dsimp only at h
      split_ifs at h <;> cases h

end PayloadMapping.Numeral

namespace PayloadMapping.Yaml

/-- A text is not among names that differ from it in some respect. -/
theorem contains_eq_false {names : List String} {cs : List Char} (test : List Char → Bool)
    (hnames : ∀ name ∈ names, test name.toList = true) (hcs : test cs = false) :
    names.contains (String.ofList cs) = false := by
  rw [Bool.eq_false_iff, Ne, List.contains_iff_mem]
  intro hmem
  have htest := hnames _ hmem
  rw [String.toList_ofList, hcs] at htest
  cases htest

/-- A text begins like a number literal: with a digit, perhaps after a minus sign. -/
def beginsLiteral : List Char → Bool
  | '-' :: d :: _ => Numeral.isDigit d
  | c :: _ => Numeral.isDigit c
  | [] => false

theorem contains_eq_false_of_begins {names : List String} {cs : List Char}
    (h : beginsLiteral cs = true)
    (hnames : ∀ name ∈ names, (!beginsLiteral name.toList) = true) :
    names.contains (String.ofList cs) = false :=
  contains_eq_false (fun cs => !beginsLiteral cs) hnames (by simp [h])

theorem meaning_of_whole {cs : List Char} {n : Int} (h : beginsLiteral cs = true)
    (hwhole : whole? cs = some n) : meaning (String.ofList cs) = .whole n := by
  unfold meaning bool?
  dsimp only
  rw [String.toList_ofList, contains_eq_false_of_begins h (by decide),
    contains_eq_false_of_begins h (by decide), contains_eq_false_of_begins h (by decide), hwhole]
  cases cs with
  | nil => cases h
  | cons => rfl

theorem meaning_of_double {cs : List Char} {x : Extended} (h : beginsLiteral cs = true)
    (hwhole : whole? cs = none) (hpadded : isPadded cs = false) (hdouble : double? cs = some x) :
    meaning (String.ofList cs) = .double x := by
  unfold meaning bool?
  dsimp only
  rw [String.toList_ofList, contains_eq_false_of_begins h (by decide),
    contains_eq_false_of_begins h (by decide), contains_eq_false_of_begins h (by decide), hwhole,
    hpadded, hdouble]
  cases cs with
  | nil => cases h
  | cons => rfl

theorem withoutPlus_of_begins {cs : List Char} (h : beginsLiteral cs = true) :
    withoutPlus cs = cs := by
  unfold withoutPlus
  split
  · cases h
  · rfl

theorem natural?_eq_none {cs : List Char} {c : Char} (hmem : c ∈ cs)
    (hc : Numeral.isDigit c = false) : Numeral.natural? 10 cs = none := by
  cases h : Numeral.natural? 10 cs with
  | none => rfl
  | some n =>
    have hdigit := Numeral.isDigit_of_natural? h c hmem
    rw [hc] at hdigit
    cases hdigit

/-- A base is announced by a letter that number literals do not have. -/
theorem announcedBase?_eq_none {cs : List Char} (h : ∀ c ∈ cs, Numeral.IsLiteralChar c) :
    announcedBase? cs = none := by
  have hletter : ∀ {c : Char} {rest : List Char}, cs = '0' :: c :: rest →
      Numeral.IsLiteralChar c := by
    rintro c rest rfl
    exact h c (List.mem_cons_of_mem _ List.mem_cons_self)
  unfold announcedBase?
  split
  · exact absurd (hletter rfl) (by decide)
  · exact absurd (hletter rfl) (by decide)
  · exact absurd (hletter rfl) (by decide)
  · rfl

theorem isPadded_unsigned {literal : List Char} (h : Json.IsUnsigned literal) :
    isPadded.zeroFirst literal = false := by
  unfold isPadded.zeroFirst
  split
  · rename_i d more
    simp [h.unpadded d more rfl]
  · rfl

theorem isPadded_of_unsigned {literal : List Char} (h : Json.IsUnsigned literal) :
    isPadded literal = false := by
  have hzero := isPadded_unsigned h
  obtain ⟨d, rest, rfl, hd⟩ := h.digitFirst
  have hsign : isSign d = false := by
    simp [isSign, Numeral.ne_of_isDigit hd (by decide : Numeral.isDigit '+' = false),
      Numeral.ne_of_isDigit hd (by decide : Numeral.isDigit '-' = false)]
  change (if isSign d then isPadded.zeroFirst rest else isPadded.zeroFirst (d :: rest)) = false
  rw [hsign]
  exact hzero

theorem beginsLiteral_of_unsigned {literal : List Char} (h : Json.IsUnsigned literal) :
    beginsLiteral literal = true := by
  obtain ⟨d, rest, rfl, hd⟩ := h.digitFirst
  unfold beginsLiteral
  split
  · rename_i hcons
    obtain ⟨rfl, -⟩ := List.cons.inj hcons
    cases hd
  · rename_i hcons
    obtain ⟨rfl, -⟩ := List.cons.inj hcons
    exact hd
  · cases ‹_ = []›

theorem beginsLiteral_of_negative {literal : List Char} (h : Json.IsUnsigned literal) :
    beginsLiteral ('-' :: literal) = true := by
  obtain ⟨d, rest, rfl, hd⟩ := h.digitFirst
  exact hd

variable {literal : List Char}

theorem whole?_of_digits (h : Json.IsUnsigned literal)
    (hdigits : ∀ c ∈ literal, Numeral.isDigit c = true)
    (hrange : InWholeRange (Nat.ofDigitChars 10 literal 0)) :
    whole? literal = some (Nat.ofDigitChars 10 literal 0 : Int) := by
  obtain ⟨d, rest, hcons, -⟩ := h.digitFirst
  have hread : Numeral.natural? 10 literal = some (Nat.ofDigitChars 10 literal 0) :=
    Numeral.natural?_of_digits (by simp [hcons]) hdigits
  have hfound : natural? literal = some (Nat.ofDigitChars 10 literal 0) := by
    unfold natural?
    rw [withoutPlus_of_begins (beginsLiteral_of_unsigned h),
      announcedBase?_eq_none fun c hc => .inl (hdigits c hc), isPadded_of_unsigned h]
    exact hread
  have hsmall : Nat.ofDigitChars 10 literal 0 < Nat.pow 2 128 := by
    have hlt := hrange.2
    have hpow : (18446744073709551616 : Nat) < Nat.pow 2 128 := by decide
    omega
  unfold whole?
  rw [hfound]
  exact if_pos hsmall

theorem whole?_of_minus (h : Json.IsUnsigned literal)
    (hdigits : ∀ c ∈ literal, Numeral.isDigit c = true)
    (hrange : InWholeRange (-(Nat.ofDigitChars 10 literal 0 : Int))) :
    whole? ('-' :: literal) = some (-(Nat.ofDigitChars 10 literal 0 : Int)) := by
  obtain ⟨d, rest, hcons, -⟩ := h.digitFirst
  have hread : Numeral.natural? 10 literal = some (Nat.ofDigitChars 10 literal 0) :=
    Numeral.natural?_of_digits (by simp [hcons]) hdigits
  have hunsigned : natural? ('-' :: literal) = none := by
    unfold natural?
    rw [withoutPlus_of_begins (beginsLiteral_of_negative h), announcedBase?_eq_none ?_,
      natural?_eq_none List.mem_cons_self (by decide)]
    · exact ite_self _
    · exact List.forall_mem_cons.2 ⟨by decide, fun c hc => .inl (hdigits c hc)⟩
  have hpadded : isPadded ('-' :: literal) = false := isPadded_unsigned h
  have hfound : negative? ('-' :: literal) = some (-(Nat.ofDigitChars 10 literal 0 : Int)) := by
    rw [negative?, announcedBase?_eq_none fun c hc => .inl (hdigits c hc), hpadded, hread]
    rfl
  have hsmall : (-(Nat.ofDigitChars 10 literal 0 : Int)).natAbs ≤ Nat.pow 2 127 := by
    have hle := hrange.1
    have hpow : (9223372036854775808 : Nat) ≤ Nat.pow 2 127 := by decide
    omega
  unfold whole?
  rw [hunsigned, hfound]
  exact if_pos hsmall

theorem whole?_eq_none {c : Char} (hbegins : beginsLiteral literal = true)
    (hchars : ∀ c ∈ literal, Numeral.IsLiteralChar c) (hmem : c ∈ literal)
    (hc : c = '.' ∨ c = 'e' ∨ c = 'E') : whole? literal = none := by
  have hdigit : Numeral.isDigit c = false := by
    obtain rfl | rfl | rfl := hc
    all_goals decide
  have hunsigned : natural? literal = none := by
    unfold natural?
    rw [withoutPlus_of_begins hbegins, announcedBase?_eq_none hchars,
      natural?_eq_none hmem hdigit]
    exact ite_self _
  have hnegative : negative? literal = none := by
    unfold negative?
    split
    · rename_i rest
      have hrest : c ∈ rest := by
        obtain rfl | hrest := List.mem_cons.1 hmem
        · obtain hc | hc | hc := hc
          all_goals cases hc
        · exact hrest
      rw [announcedBase?_eq_none fun d hd => hchars d (List.mem_cons_of_mem _ hd),
        natural?_eq_none hrest hdigit]
      exact ite_self _
    · rfl
  unfold whole?
  rw [hunsigned, hnegative]

theorem double?_of_begins (h : beginsLiteral literal = true) {x : Double}
    (hx : Numeral.double? literal = some (.finite x)) :
    double? literal = some (.finite x) := by
  unfold double?
  dsimp only
  rw [withoutPlus_of_begins h, contains_eq_false_of_begins h (by decide),
    contains_eq_false_of_begins h (by decide), contains_eq_false_of_begins h (by decide), hx]
  simp

/-- A double of a shared text is the same double in YAML. -/
theorem meaning_of_fraction {x : Double} (hbegins : beginsLiteral literal = true)
    (hpadded : isPadded literal = false) (hpoint : ∃ c ∈ literal, c = '.' ∨ c = 'e' ∨ c = 'E')
    (hx : Numeral.double? literal = some (.finite x)) :
    meaning (String.ofList literal) = .double (.finite x) := by
  obtain ⟨c, hmem, hc⟩ := hpoint
  have hchars := Numeral.isLiteralChar_of_double? hx
  exact meaning_of_double hbegins (whole?_eq_none hbegins hchars hmem hc) hpadded
    (double?_of_begins hbegins hx)

theorem ofInt?_eq_some {n : Int} {m : Number} (h : Number.ofInt? n = some m) :
    InWholeRange n := by
  unfold Number.ofInt? at h
  split at h
  · assumption
  · cases h

theorem scalarValue_whole {n : Int} {m : Number} (h : Number.ofInt? n = some m) (text : String)
    (trail : Trail) (mark : Mark) :
    scalarValue (.whole n) text trail mark = .ok (.number m) := by
  rw [scalarValue, h]

theorem scalarValue_of_word {word : List Char} {v : Value} (h : Json.SpellsWord word v)
    (trail : Trail) (mark : Mark) :
    scalarValue (meaning (String.ofList word)) (String.ofList word) trail mark = .ok v := by
  cases h with
  | null | isTrue | isFalse => rfl
  | @number literal n reads nearest =>
    cases reads with
    | @unsigned literal _ _ _ reads =>
      obtain ⟨-, hshape, ⟨x, rfl⟩ | ⟨hdigits, -, hn⟩⟩ := Json.readUnsigned_ok reads
      · obtain ⟨hpoint, hx⟩ := nearest x rfl
        rw [meaning_of_fraction (beginsLiteral_of_unsigned hshape) (isPadded_of_unsigned hshape)
          hpoint hx]
        rfl
      · have hwhole := whole?_of_digits hshape hdigits (ofInt?_eq_some hn)
        rw [meaning_of_whole (beginsLiteral_of_unsigned hshape) hwhole]
        exact scalarValue_whole hn _ trail mark
    | @negative literal _ _ _ reads =>
      obtain ⟨-, hshape, ⟨x, rfl⟩ | ⟨hdigits, -, hn⟩⟩ := Json.readUnsigned_ok reads
      · obtain ⟨hpoint, hx⟩ := nearest x rfl
        rw [meaning_of_fraction (beginsLiteral_of_negative hshape) (isPadded_unsigned hshape)
          hpoint hx]
        rfl
      · have hwhole := whole?_of_minus hshape hdigits (ofInt?_eq_some hn)
        rw [meaning_of_whole (beginsLiteral_of_negative hshape) hwhole]
        exact scalarValue_whole hn _ trail mark

theorem chars_of_word {word : List Char} {v : Value} (h : Json.SpellsWord word v) :
    ∀ c ∈ word, c ∈ "nultrefas".toList ∨ Numeral.IsLiteralChar c := by
  cases h with
  | null | isTrue | isFalse => exact List.all_iff_forall_prop.1 (by decide)
  | @number literal n reads nearest =>
    intro c hc
    right
    have hdouble : ∀ x, n = .double x → Numeral.IsLiteralChar c :=
      fun x hx => Numeral.isLiteralChar_of_double? (nearest x hx).2 c hc
    cases reads with
    | unsigned reads =>
      obtain ⟨-, -, ⟨x, hx⟩ | ⟨hdigits, -⟩⟩ := Json.readUnsigned_ok reads
      · exact hdouble x hx
      · exact .inl (hdigits c hc)
    | negative reads =>
      obtain ⟨-, -, ⟨x, hx⟩ | ⟨hdigits, -⟩⟩ := Json.readUnsigned_ok reads
      · exact hdouble x hx
      · obtain rfl | hc := List.mem_cons.1 hc
        · decide
        · exact .inl (hdigits c hc)

end PayloadMapping.Yaml
