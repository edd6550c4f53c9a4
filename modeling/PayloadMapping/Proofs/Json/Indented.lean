import PayloadMapping.Proofs.Json.Compact

set_option autoImplicit false

/-!
# Values told apart by their indented texts

Without the blanks and line breaks outside of its strings the indented text of a value is the
compact one, so it too says which value it was made of.
-/

namespace PayloadMapping.Json

/-- Where a character of a text stands: outside of strings, in a string, or behind a backslash in
a string. -/
inductive Spot where
  | plain | quoted | escaped
deriving DecidableEq

def Spot.next : Spot → Char → Spot
  | .plain, c => if c = '"' then .quoted else .plain
  | .quoted, c => if c = '"' then .plain else if c = '\\' then .escaped else .quoted
  | .escaped, _ => .quoted

def squeezed : Spot → List Char → List Char
  | _, [] => []
  | spot, c :: rest =>
    if spot = .plain ∧ (c = ' ' ∨ c = '\n') then squeezed spot rest
    else c :: squeezed (spot.next c) rest

theorem squeezed_quoted {c : Char} (hquote : c ≠ '"') (hbackslash : c ≠ '\\') (rest : List Char) :
    squeezed .quoted (c :: rest) = c :: squeezed .quoted rest := by
  rw [squeezed, if_neg (by simp), Spot.next, if_neg hquote, if_neg hbackslash]

theorem squeezed_escaped (c : Char) (rest : List Char) :
    squeezed .quoted ('\\' :: c :: rest) = '\\' :: c :: squeezed .quoted rest := by
  rw [squeezed, if_neg (by simp)]
  change '\\' :: squeezed .escaped (c :: rest) = _
  rw [squeezed, if_neg (by simp), Spot.next]

theorem digitChar_ne : ∀ n < 16, Nat.digitChar n ≠ '"' ∧ Nat.digitChar n ≠ '\\' := by decide

theorem squeezed_control {c : Char} (hc : c.toNat < 32) (rest : List Char) :
    squeezed .quoted (['\\', 'u', '0', '0'] ++ hexPair c.toNat ++ rest) =
      ['\\', 'u', '0', '0'] ++ hexPair c.toNat ++ squeezed .quoted rest := by
  obtain ⟨hhigh, hhigh'⟩ := digitChar_ne (c.toNat / 16) (by omega)
  obtain ⟨hlow, hlow'⟩ := digitChar_ne (c.toNat % 16) (by omega)
  simp only [hexPair, List.cons_append, List.nil_append]
  rw [squeezed_escaped, squeezed_quoted (by decide) (by decide),
    squeezed_quoted (by decide) (by decide), squeezed_quoted hhigh hhigh',
    squeezed_quoted hlow hlow']

theorem squeezed_escapeChar (c : Char) (rest : List Char) :
    squeezed .quoted (escapeChar c ++ rest) = escapeChar c ++ squeezed .quoted rest := by
  unfold escapeChar
  split_ifs with hquote hbackslash _ _ _ _ _ hcontrol
  case neg => exact squeezed_quoted hquote hbackslash rest
  all_goals first
    | exact squeezed_control hcontrol rest
    | exact squeezed_escaped _ rest

theorem squeezed_stringChars (s : String) (rest : List Char) :
    squeezed .plain (stringChars s ++ rest) = stringChars s ++ squeezed .plain rest := by
  have hinside : ∀ cs : List Char, squeezed .quoted (cs.flatMap escapeChar ++ '"' :: rest) =
      cs.flatMap escapeChar ++ '"' :: squeezed .plain rest := by
    intro cs
    induction cs with
    | nil => rfl
    | cons c cs ih =>
      rw [List.flatMap_cons, List.append_assoc, squeezed_escapeChar, ih, List.append_assoc]
  have hopened : squeezed .plain ('"' :: (s.toList.flatMap escapeChar ++ '"' :: rest)) =
      '"' :: squeezed .quoted (s.toList.flatMap escapeChar ++ '"' :: rest) := rfl
  simp only [stringChars, List.cons_append, List.append_assoc, List.nil_append]
  rw [hopened, hinside]

theorem squeezed_solid {c : Char} (hquote : c ≠ '"') (hblank : c ≠ ' ') (hbreak : c ≠ '\n')
    (rest : List Char) : squeezed .plain (c :: rest) = c :: squeezed .plain rest := by
  rw [squeezed, if_neg (by simp [hblank, hbreak]), Spot.next, if_neg hquote]

theorem squeezed_text (n : Number) (rest : List Char) :
    squeezed .plain (n.text.toList ++ rest) = n.text.toList ++ squeezed .plain rest := by
  obtain ⟨_, _, _, _, hchars⟩ := n.text_shape
  generalize n.text.toList = cs at hchars ⊢
  induction cs with
  | nil => rfl
  | cons c cs ih =>
    obtain ⟨hc, hcs⟩ := List.forall_mem_cons.1 hchars
    have hquote : c ≠ '"' := by
      rintro rfl
      exact absurd hc (by unfold Number.IsTextChar; decide)
    have hblank : c ≠ ' ' := by
      rintro rfl
      exact absurd hc (by unfold Number.IsTextChar; decide)
    have hbreak : c ≠ '\n' := by
      rintro rfl
      exact absurd hc (by unfold Number.IsTextChar; decide)
    rw [List.cons_append, List.cons_append, squeezed_solid hquote hblank hbreak, ih hcs]

theorem squeezed_newline (level : Nat) (rest : List Char) :
    squeezed .plain (newline level ++ rest) = squeezed .plain rest := by
  have hblanks : ∀ n, squeezed .plain (List.replicate n ' ' ++ rest) = squeezed .plain rest := by
    intro n
    induction n with
    | zero => rfl
    | succ n ih => exact ih
  exact hblanks (2 * level)

mutual

theorem squeezed_indentedChars (level : Nat) : ∀ (v : Value) (rest : List Char),
    squeezed .plain (indentedChars level v ++ rest) = compactChars v ++ squeezed .plain rest
  | .null, rest => rfl
  | .bool true, rest => rfl
  | .bool false, rest => rfl
  | .number n, rest => by
    rw [indentedChars, compactChars]
    exact squeezed_text n rest
  | .string s, rest => by
    rw [indentedChars, compactChars]
    exact squeezed_stringChars s rest
  | .array [], rest => rfl
  | .object [], rest => rfl
  | .array (v :: items), rest => by
    rw [indentedChars, compactChars]
    simp only [List.cons_append, List.append_assoc, List.nil_append]
    rw [squeezed_solid (by decide) (by decide) (by decide), squeezed_indentedItems,
      squeezed_newline, squeezed_solid (by decide) (by decide) (by decide)]
  | .object (f :: fields), rest => by
    rw [indentedChars, compactChars]
    simp only [List.cons_append, List.append_assoc, List.nil_append]
    rw [squeezed_solid (by decide) (by decide) (by decide), squeezed_indentedFields,
      squeezed_newline, squeezed_solid (by decide) (by decide) (by decide)]

theorem squeezed_indentedItems (level : Nat) : ∀ (items : List Value) (rest : List Char),
    squeezed .plain (indentedItems level items ++ rest) =
      compactItems items ++ squeezed .plain rest
  | [], rest => rfl
  | [v], rest => by
    rw [indentedItems, compactItems, List.append_assoc, squeezed_newline,
      squeezed_indentedChars level v]
  | v :: w :: items, rest => by
    rw [indentedItems, compactItems]
    · simp only [List.append_assoc, List.cons_append]
      rw [squeezed_newline, squeezed_indentedChars level v,
        squeezed_solid (by decide) (by decide) (by decide),
        squeezed_indentedItems level (w :: items)]
    · simp
    · simp

theorem squeezed_indentedFields (level : Nat) :
    ∀ (fields : List (String × Value)) (rest : List Char),
    squeezed .plain (indentedFields level fields ++ rest) =
      compactFields fields ++ squeezed .plain rest
  | [], rest => rfl
  | [(k, v)], rest => by
    rw [indentedFields, compactFields]
    simp only [List.append_assoc, List.cons_append]
    rw [squeezed_newline, squeezed_stringChars, squeezed_solid (by decide) (by decide) (by decide)]
    change _ ++ ':' :: squeezed .plain (indentedChars level v ++ rest) = _
    rw [squeezed_indentedChars level v]
  | (k, v) :: f :: fields, rest => by
    rw [indentedFields, compactFields]
    · simp only [List.append_assoc, List.cons_append]
      rw [squeezed_newline, squeezed_stringChars,
        squeezed_solid (by decide) (by decide) (by decide)]
      change _ ++ ':' :: squeezed .plain (indentedChars level v ++ _) = _
      rw [squeezed_indentedChars level v, squeezed_solid (by decide) (by decide) (by decide),
        squeezed_indentedFields level (f :: fields)]
    · simp
    · simp

end

end PayloadMapping.Json

namespace PayloadMapping.Value

/-- Different values have different indented texts. -/
theorem indented_injective {v w : Value} (h : v.indented = w.indented) : v = w := by
  have hchars : Json.indentedChars 0 v ++ [] = Json.indentedChars 0 w ++ [] := by
    rw [List.append_nil, List.append_nil]
    exact String.ofList_injective h
  have hcompact := congrArg (Json.squeezed .plain) hchars
  rw [Json.squeezed_indentedChars, Json.squeezed_indentedChars] at hcompact
  have hend : Json.EndsNumber (Json.squeezed .plain []) := Json.endsNumber_nil
  exact (Json.compactChars_injective v w _ _ hend hend hcompact).1

end PayloadMapping.Value
