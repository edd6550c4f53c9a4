import PayloadMapping.Json.Printer
import PayloadMapping.Proofs.Number.Text

set_option autoImplicit false

/-!
# Values told apart by their compact texts

The compact text says which value it was made of, also where more text follows it: strings end
at their closing quotes, numbers at the first character that is in no number, lists and objects
at their brackets. `Value.compact_injective` follows.
-/

namespace PayloadMapping.Json

/-! ## Strings -/

def hexValue (c : Char) : Nat :=
  if Numeral.isDigit c then c.toNat - '0'.toNat else c.toNat - 'a'.toNat + 10

theorem hexValue_digitChar : ∀ n < 16, hexValue (Nat.digitChar n) = n := by decide

/-- The character at the head of an escaped text, and what follows it. -/
def unescape? : List Char → Option (Char × List Char)
  | '\\' :: 'u' :: _ :: _ :: high :: low :: rest =>
    some (Char.ofNat (16 * hexValue high + hexValue low), rest)
  | '\\' :: 'b' :: rest => some ('\x08', rest)
  | '\\' :: 't' :: rest => some ('\t', rest)
  | '\\' :: 'n' :: rest => some ('\n', rest)
  | '\\' :: 'f' :: rest => some ('\x0c', rest)
  | '\\' :: 'r' :: rest => some ('\r', rest)
  | '\\' :: c :: rest => some (c, rest)
  | c :: rest => some (c, rest)
  | [] => none

theorem unescape?_cons {c : Char} (hc : c ≠ '\\') (rest : List Char) :
    unescape? (c :: rest) = some (c, rest) := by
  unfold unescape?
  split <;> simp_all

theorem unescape?_control {c : Char} (hc : c.toNat < 32) (rest : List Char) :
    unescape? (['\\', 'u', '0', '0'] ++ hexPair c.toNat ++ rest) = some (c, rest) := by
  have hhigh := hexValue_digitChar (c.toNat / 16) (by omega)
  have hlow := hexValue_digitChar (c.toNat % 16) (by omega)
  have hcode : 16 * (c.toNat / 16) + c.toNat % 16 = c.toNat := Nat.div_add_mod _ _
  simp only [hexPair, List.cons_append, List.nil_append, unescape?, hhigh, hlow, hcode,
    Char.ofNat_toNat]

theorem unescape?_escapeChar (c : Char) (rest : List Char) :
    unescape? (escapeChar c ++ rest) = some (c, rest) := by
  unfold escapeChar
  split_ifs with _ hbackslash _ _ _ _ _ hcontrol
  case neg => exact unescape?_cons hbackslash rest
  all_goals first
    | exact unescape?_control hcontrol rest
    | (subst_vars; rfl)

theorem escapeChar_shape (c : Char) : ∃ d rest, escapeChar c = d :: rest ∧ d ≠ '"' := by
  unfold escapeChar
  split_ifs with hquote
  case neg => exact ⟨c, [], rfl, hquote⟩
  all_goals exact ⟨'\\', _, rfl, by decide⟩

/-- Escaped texts up to their closing quotes are those of the same characters. -/
theorem escaped_injective : ∀ (cs ds : List Char) (r r' : List Char),
    cs.flatMap escapeChar ++ '"' :: r = ds.flatMap escapeChar ++ '"' :: r' → cs = ds ∧ r = r'
  | [], [], r, r', h => ⟨rfl, (List.cons.inj h).2⟩
  | [], d :: ds, r, r', h => by
    obtain ⟨first, rest, hd, hfirst⟩ := escapeChar_shape d
    rw [List.flatMap_cons, hd] at h
    exact absurd (List.cons.inj h).1.symm hfirst
  | c :: cs, [], r, r', h => by
    obtain ⟨first, rest, hc, hfirst⟩ := escapeChar_shape c
    rw [List.flatMap_cons, hc] at h
    exact absurd (List.cons.inj h).1 hfirst
  | c :: cs, d :: ds, r, r', h => by
    rw [List.flatMap_cons, List.flatMap_cons, List.append_assoc, List.append_assoc] at h
    have hread := congrArg unescape? h
    rw [unescape?_escapeChar, unescape?_escapeChar] at hread
    obtain ⟨rfl, hrest⟩ := Prod.mk.inj (Option.some.inj hread)
    obtain ⟨rfl, hr⟩ := escaped_injective cs ds r r' hrest
    exact ⟨rfl, hr⟩

theorem stringChars_injective {s t : String} {r r' : List Char}
    (h : stringChars s ++ r = stringChars t ++ r') : s = t ∧ r = r' := by
  simp only [stringChars, List.cons_append, List.append_assoc, List.nil_append] at h
  obtain ⟨hchars, hr⟩ := escaped_injective _ _ _ _ (List.cons.inj h).2
  exact ⟨String.toList_inj.1 hchars, hr⟩

/-! ## Numbers -/

/-- What may follow the text of a value: nothing, or a character that is in no number. -/
def EndsNumber (rest : List Char) : Prop := ∀ c tail, rest = c :: tail → ¬ Number.IsTextChar c

theorem endsNumber_nil : EndsNumber [] := fun _ _ h => by cases h

theorem endsNumber_cons {c : Char} {rest : List Char} (hc : ¬ Number.IsTextChar c) :
    EndsNumber (c :: rest) := by
  intro d tail h
  rwa [← (List.cons.inj h).1]

theorem eq_of_append_eq_append {p : Char → Prop} : ∀ (xs ys : List Char) (r r' : List Char),
    (∀ c ∈ xs, p c) → (∀ c ∈ ys, p c) → (∀ c tail, r = c :: tail → ¬ p c) →
    (∀ c tail, r' = c :: tail → ¬ p c) → xs ++ r = ys ++ r' → xs = ys ∧ r = r'
  | [], [], r, r', _, _, _, _, h => ⟨rfl, h⟩
  | [], y :: ys, r, r', _, hys, hr, _, h => absurd (hys y List.mem_cons_self) (hr y _ h)
  | x :: xs, [], r, r', hxs, _, _, hr', h => absurd (hxs x List.mem_cons_self) (hr' x _ h.symm)
  | x :: xs, y :: ys, r, r', hxs, hys, hr, hr', h => by
    obtain ⟨rfl, hrest⟩ := List.cons.inj h
    obtain ⟨rfl, heq⟩ := eq_of_append_eq_append xs ys r r'
      (fun c hc => hxs c (List.mem_cons_of_mem _ hc))
      (fun c hc => hys c (List.mem_cons_of_mem _ hc)) hr hr' hrest
    exact ⟨rfl, heq⟩

theorem text_append_injective {m n : Number} {r r' : List Char} (hr : EndsNumber r)
    (hr' : EndsNumber r') (h : m.text.toList ++ r = n.text.toList ++ r') : m = n ∧ r = r' := by
  obtain ⟨_, _, _, _, hm⟩ := m.text_shape
  obtain ⟨_, _, _, _, hn⟩ := n.text_shape
  obtain ⟨htext, heq⟩ := eq_of_append_eq_append _ _ r r' hm hn hr hr' h
  exact ⟨Number.text_injective (String.toList_inj.1 htext), heq⟩

/-! ## Values -/

def kindOfHead (c : Char) : Kind :=
  if c = 'n' then .null
  else if c = 't' ∨ c = 'f' then .bool
  else if c = '"' then .string
  else if c = '[' then .array
  else if c = '\x7b' then .object
  else .number

theorem kindOfHead_number {c : Char} (h : Numeral.isDigit c = true ∨ c = '-') :
    kindOfHead c = .number := by
  rcases h with h | rfl
  · have hne {d : Char} (hd : Numeral.isDigit d = false) : c ≠ d := Numeral.ne_of_isDigit h hd
    unfold kindOfHead
    rw [if_neg (hne (by decide)), if_neg (not_or.2 ⟨hne (by decide), hne (by decide)⟩),
      if_neg (hne (by decide)), if_neg (hne (by decide)), if_neg (hne (by decide))]
  · rfl

theorem compactChars_shape (v : Value) :
    ∃ c rest, compactChars v = c :: rest ∧ kindOfHead c = v.kind ∧ c ≠ ']' := by
  cases v with
  | null => exact ⟨'n', _, rfl, rfl, by decide⟩
  | bool b =>
    cases b with
    | true => exact ⟨'t', _, rfl, rfl, by decide⟩
    | false => exact ⟨'f', _, rfl, rfl, by decide⟩
  | number n =>
    obtain ⟨c, rest, htext, hc, _⟩ := n.text_shape
    refine ⟨c, rest, by rw [compactChars, htext], kindOfHead_number hc, ?_⟩
    rintro rfl
    exact absurd hc (by decide)
  | string s => exact ⟨'"', _, by rw [compactChars, stringChars]; rfl, rfl, by decide⟩
  | array items => exact ⟨'[', _, by rw [compactChars]; rfl, rfl, by decide⟩
  | object fields => exact ⟨'\x7b', _, by rw [compactChars]; rfl, rfl, by decide⟩

theorem kind_eq_of_compactChars {v w : Value} {r r' : List Char}
    (h : compactChars v ++ r = compactChars w ++ r') : v.kind = w.kind := by
  obtain ⟨c, rest, hv, hkind, _⟩ := compactChars_shape v
  obtain ⟨c', rest', hw, hkind', _⟩ := compactChars_shape w
  rw [hv, hw] at h
  rw [← hkind, ← hkind', (List.cons.inj h).1]

def itemsTail (rest : List Value) (r : List Char) : List Char :=
  match rest with
  | [] => ']' :: r
  | _ => ',' :: (compactItems rest ++ ']' :: r)

def fieldsTail (rest : List (String × Value)) (r : List Char) : List Char :=
  match rest with
  | [] => '\x7d' :: r
  | _ => ',' :: (compactFields rest ++ '\x7d' :: r)

theorem compactItems_cons_append (v : Value) (rest : List Value) (r : List Char) :
    compactItems (v :: rest) ++ ']' :: r = compactChars v ++ itemsTail rest r := by
  cases rest <;> simp [compactItems, itemsTail]

theorem compactFields_cons_append (k : String) (v : Value) (rest : List (String × Value))
    (r : List Char) :
    compactFields ((k, v) :: rest) ++ '\x7d' :: r =
      stringChars k ++ ':' :: (compactChars v ++ fieldsTail rest r) := by
  cases rest <;> simp [compactFields, fieldsTail]

theorem endsNumber_itemsTail (rest : List Value) (r : List Char) :
    EndsNumber (itemsTail rest r) := by
  unfold itemsTail
  split
  · exact endsNumber_cons (by unfold Number.IsTextChar; decide)
  · exact endsNumber_cons (by unfold Number.IsTextChar; decide)

theorem endsNumber_fieldsTail (rest : List (String × Value)) (r : List Char) :
    EndsNumber (fieldsTail rest r) := by
  unfold fieldsTail
  split
  · exact endsNumber_cons (by unfold Number.IsTextChar; decide)
  · exact endsNumber_cons (by unfold Number.IsTextChar; decide)

mutual

theorem compactChars_injective : ∀ (v w : Value) (r r' : List Char), EndsNumber r →
    EndsNumber r' → compactChars v ++ r = compactChars w ++ r' → v = w ∧ r = r'
  | .null, w, r, r', _, _, h => by
    cases w with
    | null => exact ⟨rfl, List.append_cancel_left h⟩
    | _ => cases kind_eq_of_compactChars h
  | .bool b, w, r, r', _, _, h => by
    cases w with
    | bool c =>
      cases b <;> cases c
      · exact ⟨rfl, List.append_cancel_left h⟩
      · cases (List.cons.inj h).1
      · cases (List.cons.inj h).1
      · exact ⟨rfl, List.append_cancel_left h⟩
    | _ => cases kind_eq_of_compactChars h
  | .number m, w, r, r', hr, hr', h => by
    cases w with
    | number n =>
      obtain ⟨rfl, heq⟩ := text_append_injective hr hr' h
      exact ⟨rfl, heq⟩
    | _ => cases kind_eq_of_compactChars h
  | .string s, w, r, r', _, _, h => by
    cases w with
    | string t =>
      obtain ⟨rfl, heq⟩ := stringChars_injective h
      exact ⟨rfl, heq⟩
    | _ => cases kind_eq_of_compactChars h
  | .array items, w, r, r', _, _, h => by
    cases w with
    | array others =>
      simp only [compactChars, List.cons_append, List.append_assoc, List.nil_append] at h
      obtain ⟨rfl, heq⟩ := compactItems_injective items others r r' (List.cons.inj h).2
      exact ⟨rfl, heq⟩
    | _ => cases kind_eq_of_compactChars h
  | .object fields, w, r, r', _, _, h => by
    cases w with
    | object others =>
      simp only [compactChars, List.cons_append, List.append_assoc, List.nil_append] at h
      obtain ⟨rfl, heq⟩ := compactFields_injective fields others r r' (List.cons.inj h).2
      exact ⟨rfl, heq⟩
    | _ => cases kind_eq_of_compactChars h

theorem compactItems_injective : ∀ (vs ws : List Value) (r r' : List Char),
    compactItems vs ++ ']' :: r = compactItems ws ++ ']' :: r' → vs = ws ∧ r = r'
  | [], ws, r, r', h => by
    cases ws with
    | nil => exact ⟨rfl, (List.cons.inj h).2⟩
    | cons w ws =>
      obtain ⟨c, rest, hw, _, hc⟩ := compactChars_shape w
      rw [compactItems_cons_append, hw] at h
      exact absurd (List.cons.inj h).1.symm hc
  | v :: vs, ws, r, r', h => by
    cases ws with
    | nil =>
      obtain ⟨c, rest, hv, _, hc⟩ := compactChars_shape v
      rw [compactItems_cons_append, hv] at h
      exact absurd (List.cons.inj h).1 hc
    | cons w ws =>
      rw [compactItems_cons_append, compactItems_cons_append] at h
      obtain ⟨rfl, htail⟩ := compactChars_injective v w _ _ (endsNumber_itemsTail vs r)
        (endsNumber_itemsTail ws r') h
      cases vs with
      | nil =>
        cases ws with
        | nil => exact ⟨rfl, (List.cons.inj htail).2⟩
        | cons _ _ => cases (List.cons.inj htail).1
      | cons u us =>
        cases ws with
        | nil => cases (List.cons.inj htail).1
        | cons _ _ =>
          obtain ⟨hrest, heq⟩ := compactItems_injective (u :: us) _ r r' (List.cons.inj htail).2
          exact ⟨by rw [hrest], heq⟩

theorem compactFields_injective : ∀ (fs gs : List (String × Value)) (r r' : List Char),
    compactFields fs ++ '\x7d' :: r = compactFields gs ++ '\x7d' :: r' → fs = gs ∧ r = r'
  | [], gs, r, r', h => by
    cases gs with
    | nil => exact ⟨rfl, (List.cons.inj h).2⟩
    | cons g gs =>
      rw [compactFields_cons_append] at h
      cases (List.cons.inj h).1
  | (k, v) :: fs, gs, r, r', h => by
    cases gs with
    | nil =>
      rw [compactFields_cons_append] at h
      cases (List.cons.inj h).1
    | cons g gs =>
      obtain ⟨l, w⟩ := g
      rw [compactFields_cons_append, compactFields_cons_append] at h
      obtain ⟨rfl, hvalue⟩ := stringChars_injective h
      obtain ⟨rfl, htail⟩ := compactChars_injective v w _ _ (endsNumber_fieldsTail fs r)
        (endsNumber_fieldsTail gs r') (List.cons.inj hvalue).2
      cases fs with
      | nil =>
        cases gs with
        | nil => exact ⟨rfl, (List.cons.inj htail).2⟩
        | cons _ _ => cases (List.cons.inj htail).1
      | cons f fs =>
        cases gs with
        | nil => cases (List.cons.inj htail).1
        | cons _ _ =>
          obtain ⟨hrest, heq⟩ := compactFields_injective (f :: fs) _ r r' (List.cons.inj htail).2
          exact ⟨by rw [hrest], heq⟩

end

end PayloadMapping.Json

namespace PayloadMapping.Value

/-- Different values have different compact texts. -/
theorem compact_injective {v w : Value} (h : v.compact = w.compact) : v = w := by
  have hchars : Json.compactChars v ++ [] = Json.compactChars w ++ [] := by
    rw [List.append_nil, List.append_nil]
    exact String.ofList_injective h
  exact (Json.compactChars_injective v w [] [] Json.endsNumber_nil Json.endsNumber_nil hchars).1

end PayloadMapping.Value
