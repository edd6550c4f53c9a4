import PayloadMapping.Action.Apply
import PayloadMapping.Proofs.Text.Case

set_option autoImplicit false

/-!
# Title case of a text in title case

A text is titled when the first letter of every run of letters is its own upper case and every
other letter its own lower case. These are the texts that title case leaves as they are. Title
case leads to one as long as no letter is mapped to several characters where it stands; the lower
case of `İ` is an `i` and a mark, which ends the word, so that the letter after it counts as a
first one the next time.
-/

namespace PayloadMapping

namespace Text

/-- Every letter has the property; it may depend on whether a letter comes just before. -/
def EachLetter (P : Bool → Char → Prop) (inWord : Bool) : List Char → Prop
  | [] => True
  | c :: rest => (isLetter c = true → P inWord c) ∧ EachLetter P (isLetter c) rest

instance decidableEachLetter (P : Bool → Char → Prop) [∀ inWord c, Decidable (P inWord c)] :
    ∀ (inWord : Bool) (cs : List Char), Decidable (EachLetter P inWord cs)
  | _, [] => inferInstanceAs (Decidable True)
  | inWord, c :: rest =>
    have := decidableEachLetter P (isLetter c) rest
    inferInstanceAs (Decidable ((isLetter c = true → P inWord c) ∧ EachLetter P (isLetter c) rest))

/-- The letter in the case of its place: the first of a word in upper case, any other in lower
case. -/
def casing (inWord : Bool) (c : Char) : List Char := if inWord then lowerChar c else upperChar c

def IsCased (inWord : Bool) (c : Char) : Prop := casing inWord c = [c]

def CasesToOne (inWord : Bool) (c : Char) : Prop := (casing inWord c).length = 1

instance (inWord : Bool) (c : Char) : Decidable (IsCased inWord c) :=
  inferInstanceAs (Decidable (_ = _))

instance (inWord : Bool) (c : Char) : Decidable (CasesToOne inWord c) :=
  inferInstanceAs (Decidable (_ = _))

/-- Every word has its first letter in upper case and the others in lower case. -/
def IsTitled (s : String) : Prop := EachLetter IsCased false s.toList

def CasesOneByOne (s : String) : Prop := EachLetter CasesToOne false s.toList

instance (s : String) : Decidable (IsTitled s) := inferInstanceAs (Decidable (EachLetter _ _ _))

instance (s : String) : Decidable (CasesOneByOne s) :=
  inferInstanceAs (Decidable (EachLetter _ _ _))

theorem casing_length_pos (inWord : Bool) (c : Char) : 0 < (casing inWord c).length := by
  cases inWord with
  | false => exact List.length_pos_iff.2 (upperChar_ne_nil c)
  | true => exact List.length_pos_iff.2 (lowerChar_ne_nil c)

theorem casing_image {inWord : Bool} {c d : Char} (hd : casing inWord c = [d])
    (hc : isLetter c = true) : isLetter d = true ∧ IsCased inWord d := by
  cases inWord with
  | false => exact upperChar_image hd hc
  | true => exact lowerChar_image hd hc

theorem titleFrom_letter (inWord : Bool) {c : Char} (rest : List Char) (hc : isLetter c = true) :
    titleFrom inWord (c :: rest) = casing inWord c ++ titleFrom true rest := by
  rw [titleFrom, if_pos hc, casing]

theorem titleFrom_other (inWord : Bool) {c : Char} (rest : List Char) (hc : ¬isLetter c = true) :
    titleFrom inWord (c :: rest) = c :: titleFrom false rest := by
  rw [titleFrom, if_neg hc]

theorem length_le_titleFrom (inWord : Bool) (cs : List Char) :
    cs.length ≤ (titleFrom inWord cs).length := by
  induction cs generalizing inWord with
  | nil => exact Nat.zero_le _
  | cons c rest ih =>
    by_cases hc : isLetter c = true
    · have hpos := casing_length_pos inWord c
      have hrest := ih true
      rw [titleFrom_letter inWord rest hc, List.length_append, List.length_cons]
      omega
    · rw [titleFrom_other inWord rest hc, List.length_cons, List.length_cons]
      exact Nat.succ_le_succ (ih false)

/-- No mapping is empty, so a text that title case leaves alone has all its letters mapped to
themselves: what is longer at one letter could not be shorter later. -/
theorem titleFrom_eq_self_iff (inWord : Bool) (cs : List Char) :
    titleFrom inWord cs = cs ↔ EachLetter IsCased inWord cs := by
  induction cs generalizing inWord with
  | nil => exact iff_of_true rfl trivial
  | cons c rest ih =>
    by_cases hc : isLetter c = true
    · rw [titleFrom_letter inWord rest hc, EachLetter, hc, ← ih true]
      constructor
      · intro heq
        have hlength := congrArg List.length heq
        have hpos := casing_length_pos inWord c
        have hrest := length_le_titleFrom true rest
        rw [List.length_append, List.length_cons] at hlength
        have hsplit : casing inWord c = [c] ∧ titleFrom true rest = rest :=
          List.append_inj heq (by rw [List.length_singleton]; omega)
        exact ⟨fun _ => hsplit.1, hsplit.2⟩
      · rintro ⟨hcased, hrest⟩
        rw [hcased rfl, hrest, List.singleton_append]
    · rw [titleFrom_other inWord rest hc, EachLetter, Bool.eq_false_iff.2 hc, ← ih false]
      simp

theorem eachLetter_titleFrom {inWord : Bool} {cs : List Char}
    (h : EachLetter CasesToOne inWord cs) : EachLetter IsCased inWord (titleFrom inWord cs) := by
  induction cs generalizing inWord with
  | nil => trivial
  | cons c rest ih =>
    by_cases hc : isLetter c = true
    · obtain ⟨halone, hrest⟩ := h
      obtain ⟨d, hd⟩ := List.length_eq_one_iff.1 (halone hc)
      have ⟨hletter, hcased⟩ := casing_image hd hc
      rw [titleFrom_letter inWord rest hc, hd, List.singleton_append, EachLetter, hletter]
      rw [hc] at hrest
      exact ⟨fun _ => hcased, ih hrest⟩
    · obtain ⟨-, hrest⟩ := h
      rw [Bool.eq_false_iff.2 hc] at hrest
      rw [titleFrom_other inWord rest hc, EachLetter, Bool.eq_false_iff.2 hc]
      exact ⟨fun hletter => absurd hletter (by simp), ih hrest⟩

theorem title_eq_self_iff (s : String) : title s = s ↔ IsTitled s := by
  rw [IsTitled, ← titleFrom_eq_self_iff, title, ← String.toList_inj, String.toList_ofList]

theorem isTitled_title {s : String} (h : CasesOneByOne s) : IsTitled (title s) := by
  rw [IsTitled, title, String.toList_ofList]
  exact eachLetter_titleFrom h

end Text

namespace Action

/-- Capitalising a text gives a text, and capitalising that one changes nothing exactly when
every word of it has its first letter in upper case and the others in lower case. It does when no
letter of the text has several characters for its case where it stands. -/
theorem capitalise_twice (s : String) (scope : Value) :
    ∃ t, capitalise.apply (.string s) scope = .ok (.string t) ∧
      (capitalise.apply (.string t) scope = .ok (.string t) ↔ Text.IsTitled t) ∧
      (Text.CasesOneByOne s → Text.IsTitled t) := by
  refine ⟨Text.title s, rfl, ?_, Text.isTitled_title⟩
  rw [← Text.title_eq_self_iff]
  simp only [apply, capitaliseValue, Except.ok.injEq, Value.string.injEq]

theorem capitalise_twice_words :
    Text.CasesOneByOne "naÏVE éTÉ, i18n" ∧
      capitalise.apply (.string "naÏVE éTÉ, i18n") .null = .ok (.string "Naïve Été, I18N") ∧
      capitalise.apply (.string "Naïve Été, I18N") .null = .ok (.string "Naïve Été, I18N") := by
  have hone : Text.CasesOneByOne "naÏVE éTÉ, i18n" := by decide +kernel
  have hfirst : capitalise.apply (.string "naÏVE éTÉ, i18n") .null =
      .ok (.string "Naïve Été, I18N") :=
    congrArg (fun t => Except.ok (Value.string t)) (by decide +kernel)
  obtain ⟨t, ht, hiff, htitled⟩ := capitalise_twice "naÏVE éTÉ, i18n" .null
  obtain rfl : "Naïve Été, I18N" = t := by simpa using hfirst.symm.trans ht
  exact ⟨hone, hfirst, hiff.2 (htitled hone)⟩

/-- The mark after the `i` is no letter, so the `b` begins a word in the result and is put in
upper case the second time. -/
theorem capitalise_dotted_capital :
    capitalise.apply (.string "aİb") .null = .ok (.string "Ai\u0307b") ∧
      ¬Text.IsTitled "Ai\u0307b" ∧
      capitalise.apply (.string "Ai\u0307b") .null = .ok (.string "Ai\u0307B") ∧
      "Ai\u0307B" ≠ "Ai\u0307b" := by
  refine ⟨?_, by decide +kernel, ?_, by decide⟩
  · exact congrArg (fun t => Except.ok (Value.string t)) (by decide +kernel)
  · exact congrArg (fun t => Except.ok (Value.string t)) (by decide +kernel)

end Action

end PayloadMapping
