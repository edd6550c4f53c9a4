import PayloadMapping.Yaml.Scalar
import PayloadMapping.Proofs.Json.Shared

set_option autoImplicit false

/-!
# Scalars of shared texts in YAML

Quoted and plain scalars are read from the texts that JSON and YAML share as JSON reads them.
-/

namespace PayloadMapping.Yaml

theorem byteCount_cons (c : Char) (cs : List Char) :
    byteCount (c :: cs) = c.utf8Size + byteCount cs := by
  have hfold : ∀ (cs : List Char) (n : Nat),
      cs.foldl (fun count c => count + c.utf8Size) n = n + byteCount cs := by
    intro cs
    induction cs with
    | nil => exact fun _ => rfl
    | cons c rest ih =>
      intro n
      rw [byteCount, List.foldl_cons, List.foldl_cons, ih, ih, Nat.zero_add, Nat.add_assoc]
  rw [byteCount, List.foldl_cons, hfold, Nat.zero_add]

theorem byteCount_append (cs ds : List Char) :
    byteCount (cs ++ ds) = byteCount cs + byteCount ds := by
  induction cs with
  | nil => exact (Nat.zero_add _).symm
  | cons c rest ih => rw [List.cons_append, byteCount_cons, byteCount_cons, ih, Nat.add_assoc]

namespace Input

theorem skip_skip (input : Input) (m n : Nat) : (input.skip m).skip n = input.skip (m + n) := by
  unfold skip
  rw [List.drop_drop, List.take_add, byteCount_append, Nat.add_assoc, Nat.add_assoc]

theorem rest_skip {input : Input} {rest : List Char} (taken : List Char)
    (h : input.rest = taken ++ rest) :
    (input.skip taken.length).rest = rest := by
  rw [skip, h, List.drop_left]

theorem index_skip (input : Input) (n : Nat) :
    (input.skip n).mark.index + byteCount (input.skip n).rest =
      input.mark.index + byteCount input.rest := by
  have hsplit := congrArg byteCount (List.take_append_drop n input.rest)
  rw [byteCount_append] at hsplit
  simp only [skip]
  omega

theorem atMarker_skip (input : Input) {n : Nat} (h : 0 < n) : (input.skip n).atMarker = false := by
  have hcolumn : (input.mark.column + n == 0) = false := by simp; omega
  simp [atMarker, skip, hcolumn]

end Input

/-! ## Gaps -/

theorem Gap.read_blanks {margin : Nat} {blanks rest : List Char}
    (hblanks : ∀ c ∈ blanks, isBlank c = true)
    (hrest : ∀ c tail, rest = c :: tail → isBlank c = false ∧ isBreak c = false) :
    ∀ {steps : Nat} (read : List Char) {input : Input}, input.rest = blanks ++ rest →
      blanks.length ≤ steps →
      Gap.read margin steps (.blanks read) input =
        some (.blanks (read ++ blanks), input.skip blanks.length) := by
  induction blanks with
  | nil =>
    intro steps read input hinput _
    have hskip : input.skip 0 = input := by simp [Input.skip, byteCount]
    rw [List.append_nil, List.length_nil, hskip]
    cases steps with
    | zero => rfl
    | succ steps =>
      rw [Gap.read, hinput]
      cases rest with
      | nil => rfl
      | cons c tail =>
        obtain ⟨hblank, hbreak⟩ := hrest c tail rfl
        simp [hblank, hbreak]
  | cons c more ih =>
    intro steps read input hinput hsteps
    obtain ⟨hblank, hmore⟩ := List.forall_mem_cons.1 hblanks
    obtain ⟨steps, rfl⟩ := Nat.exists_eq_add_one_of_ne_zero
      (Nat.ne_zero_of_lt (Nat.lt_of_lt_of_le (Nat.zero_lt_succ _) hsteps))
    have hnext : input.next.rest = more ++ rest := Input.rest_skip [c] hinput
    have hread := ih hmore (read ++ [c]) hnext (Nat.le_of_succ_le_succ hsteps)
    rw [List.append_assoc, Input.next, Input.skip_skip, Nat.add_comm] at hread
    rw [Gap.read, hinput]
    dsimp only [List.cons_append]
    rw [if_pos hblank]
    exact hread

theorem afterBlanks_space {c : Char} (hc : Json.Cursor.isSpace c = true) (rest : List Char) :
    Json.afterBlanks (c :: rest) = Json.afterBlanks rest :=
  List.dropWhile_cons_of_pos hc

theorem afterBlanks_append {blanks : List Char}
    (h : ∀ c ∈ blanks, Json.Cursor.isSpace c = true) (rest : List Char) :
    Json.afterBlanks (blanks ++ rest) = Json.afterBlanks rest :=
  List.dropWhile_append_of_pos h

theorem Input.readBreak_rest {c : Char} {rest : List Char} (input : Input)
    (hinput : input.rest = c :: rest) (hc : isBreak c = true)
    (hspace : Json.Cursor.isSpace c = true) :
    ∃ taken, c :: rest = c :: taken ++ input.readBreak.2.rest ∧
      ∀ d ∈ c :: taken, Json.Cursor.isSpace d = true := by
  unfold Input.readBreak
  split
  · rename_i after hafter
    obtain ⟨rfl, rfl⟩ := List.cons.inj (hinput.symm.trans hafter)
    exact ⟨['\n'], rfl, by simp [Json.Cursor.isSpace]⟩
  · rename_i d after _ hafter
    obtain ⟨rfl, rfl⟩ := List.cons.inj (hinput.symm.trans hafter)
    rw [if_pos hc]
    exact ⟨[], rfl, by simpa using hspace⟩
  · rename_i hnil
    rw [hinput] at hnil
    cases hnil

/-- A character that ends a gap, after blanks and line breaks. -/
def EndsGap (cs : List Char) : Prop :=
  ∃ c tail, Json.afterBlanks cs = c :: tail ∧ isBlank c = false ∧ isBreak c = false

theorem isSpace_of_isBlank {c : Char} (h : isBlank c = true) : Json.Cursor.isSpace c = true := by
  have hc : c = ' ' ∨ c = '\t' := by simpa [isBlank] using h
  obtain rfl | rfl := hc
  all_goals decide

theorem isSpace_eq (c : Char) :
    Json.Cursor.isSpace c = (isBlank c || c == '\n' || c == '\r') := by
  unfold Json.Cursor.isSpace isBlank
  cases c == ' ' <;> cases c == '\t' <;> cases c == '\n' <;> rfl

theorem Gap.read_to_end {steps : Nat} : ∀ (gap : Gap) (input : Input),
    input.rest.length ≤ steps → EndsGap input.rest →
    ∃ found after, Gap.read 0 steps gap input = some (found, after) ∧
      after.rest = Json.afterBlanks input.rest := by
  induction steps with
  | zero =>
    rintro gap input hsteps ⟨c, tail, hc, -⟩
    rw [List.length_eq_zero_iff.1 (Nat.le_zero.1 hsteps)] at hc
    cases hc
  | succ steps ih =>
    rintro gap input hsteps ⟨d, tail, hd, hdblank, hdbreak⟩
    cases hinput : input.rest with
    | nil =>
      rw [hinput] at hd
      cases hd
    | cons c rest =>
      rw [hinput] at hsteps hd
      -- whatever is taken, what is left goes to the same end
      have hon : ∀ (gap : Gap) (next : Input),
          Json.afterBlanks next.rest = Json.afterBlanks (c :: rest) →
          next.rest.length ≤ rest.length → ∃ found after,
            Gap.read 0 steps gap next = some (found, after) ∧
              after.rest = Json.afterBlanks (c :: rest) := by
        intro gap next hnext hlength
        rw [← hnext]
        refine ih gap next (hlength.trans (Nat.le_of_succ_le_succ hsteps))
          ⟨d, tail, ?_, hdblank, hdbreak⟩
        rw [hnext, hd]
      rw [Gap.read, hinput]
      dsimp only
      cases hblank : isBlank c with
      | true =>
        have hnext : input.next.rest = rest := Input.rest_skip [c] hinput
        have hspace := afterBlanks_space (isSpace_of_isBlank hblank) rest
        rw [if_pos rfl]
        cases gap with
        | blanks cs => exact hon _ _ (by rw [hspace, hnext]) (by rw [hnext])
        | breaks first more =>
          dsimp only
          rw [if_neg (fun h => Nat.not_lt_zero _ h.2)]
          exact hon _ _ (by rw [hspace, hnext]) (by rw [hnext])
      | false =>
        rw [if_neg Bool.false_ne_true]
        cases hbreak : isBreak c with
        | false =>
          have hspace : Json.Cursor.isSpace c = false := by
            have hnone : c ≠ '\n' ∧ c ≠ '\r' := by
              rw [Bool.eq_false_iff] at hbreak
              exact ⟨fun hc => hbreak (hc ▸ rfl), fun hc => hbreak (hc ▸ rfl)⟩
            simp [isSpace_eq, hblank, hnone]
          rw [Json.afterBlanks_cons hspace]
          exact ⟨gap, input, rfl, hinput⟩
        | true =>
          have hspace : Json.Cursor.isSpace c = true := by
            by_contra hspace
            rw [Json.afterBlanks_cons (Bool.eq_false_iff.2 hspace)] at hd
            obtain ⟨rfl, -⟩ := List.cons.inj hd
            rw [hbreak] at hdbreak
            cases hdbreak
          obtain ⟨taken, htaken, hspaces⟩ := Input.readBreak_rest input hinput hbreak hspace
          have hafter := afterBlanks_append hspaces input.readBreak.2.rest
          rw [← htaken] at hafter
          have hlength : input.readBreak.2.rest.length ≤ rest.length := by
            have hcount := congrArg List.length htaken
            simp only [List.length_cons, List.length_append] at hcount
            omega
          rw [if_pos rfl]
          cases gap with
          | blanks | breaks => exact hon _ _ hafter.symm hlength

/-! ## Quoted scalars -/

theorem letterEscape?_of_short {c d : Char} (h : Json.shortEscape? c = some d) :
    letterEscape? c = some d := by
  unfold Json.shortEscape? at h
  split at h
  all_goals first | exact h | cases h

theorem lt_of_digitValue? {base : Nat} {c : Char} {d : Nat}
    (h : Numeral.digitValue? base c = some d) : d < base := by
  obtain ⟨hlt, hvalue⟩ := Option.ite_none_right_eq_some.1 h
  exact Option.some.inj hvalue ▸ hlt

theorem lt_of_foldDigits? {base : Nat} : ∀ {cs : List Char} {acc bound n : Nat},
    acc < bound → Numeral.foldDigits? base acc cs = some n → n < bound * base ^ cs.length
  | [], acc, bound, n, hacc, h => by
    obtain rfl := Option.some.inj h
    simpa using hacc
  | c :: rest, acc, bound, n, hacc, h => by
    rw [Numeral.foldDigits?] at h
    cases hvalue : Numeral.digitValue? base c with
    | none =>
      rw [hvalue] at h
      cases h
    | some d =>
      rw [hvalue] at h
      have hd := lt_of_digitValue? hvalue
      have hnext : acc * base + d < bound * base := by nlinarith
      have hn := lt_of_foldDigits? hnext h
      rwa [List.length_cons, Nat.pow_succ', ← Nat.mul_assoc]

theorem escapedChar?_of_code {c₁ c₂ c₃ c₄ : Char} {code : Nat}
    (h : Numeral.natural? 16 [c₁, c₂, c₃, c₄] = some code)
    (hwhole : ¬(0xD800 ≤ code ∧ code ≤ 0xDFFF)) :
    escapedChar? [c₁, c₂, c₃, c₄] = some (Char.ofNat code) := by
  have hsmall : code < 1 * 16 ^ 4 := lt_of_foldDigits? Nat.zero_lt_one h
  unfold escapedChar?
  rw [h]
  exact if_neg (by omega)

/-- Escapes that both formats have stand for the same characters. -/
theorem readEscape_of_spells {after more : List Char} {d : Char}
    (h : Json.SpellsEscape after d more) :
    ∃ e taken, after = e :: taken ++ more ∧ isBreak e = false ∧ ∀ {input : Input},
      input.rest = after → readEscape input = some (d, input.skip (e :: taken).length) := by
  cases h with
  | @letter c _ _ means =>
    refine ⟨c, [], rfl, ?_, ?_⟩
    · unfold Json.shortEscape? at means
      split at means
      all_goals first | rfl | cases means
    · intro input hinput
      unfold readEscape
      rw [hinput]
      dsimp only
      rw [letterEscape?_of_short means]
      rfl
  | @code c₁ c₂ c₃ c₄ code _ means whole =>
    refine ⟨'u', [c₁, c₂, c₃, c₄], rfl, rfl, ?_⟩
    intro input hinput
    unfold readEscape
    rw [hinput]
    change (escapedChar? [c₁, c₂, c₃, c₄]).map _ = _
    rw [escapedChar?_of_code means whole]
    rfl

theorem split_blanks {text s more : List Char} (h : Json.SpellsChars text s more) :
    ∃ blanks text' s', text = blanks ++ text' ∧ s = blanks ++ s' ∧
      (∀ c ∈ blanks, isBlank c = true) ∧ (∀ c tail, text' = c :: tail → isBlank c = false ∧
        isBreak c = false) ∧ Json.SpellsChars text' s' more := by
  induction h with
  | @quote more =>
    refine ⟨[], _, _, rfl, rfl, by simp, ?_, .quote⟩
    intro c tail h
    obtain ⟨rfl, -⟩ := List.cons.inj h
    decide
  | @plain c text s more hplain others ih =>
    cases hc : isBlank c with
    | true =>
      obtain ⟨blanks, text', s', rfl, rfl, hblanks, hstop, hothers⟩ := ih
      exact ⟨c :: blanks, text', s', rfl, rfl, List.forall_mem_cons.2 ⟨hc, hblanks⟩, hstop,
        hothers⟩
    | false =>
      refine ⟨[], _, _, rfl, rfl, by simp, ?_, .plain hplain others⟩
      intro d tail h
      obtain ⟨rfl, -⟩ := List.cons.inj h
      exact ⟨hc, hplain.unbroken⟩
  | escape hescape others ih =>
    refine ⟨[], _, _, rfl, rfl, by simp, ?_, .escape hescape others⟩
    intro c tail h
    obtain ⟨rfl, -⟩ := List.cons.inj h
    decide

theorem Input.skip_parts {input : Input} {taken text more : List Char}
    (hmore : more.length ≤ text.length) :
    (input.skip taken.length).skip (text.length - more.length) =
      input.skip ((taken ++ text).length - more.length) := by
  rw [skip_skip, List.length_append, Nat.add_sub_assoc hmore]

theorem quotedFrom_of_spells {steps : Nat} : ∀ {text s more : List Char},
    Json.SpellsChars text s more → ∀ (read : List Char) {input : Input}, input.rest = text →
      text.length < steps →
      quotedFrom false steps read input =
        some (read.reverse ++ s, input.skip (text.length - more.length)) := by
  induction steps with
  | zero => exact fun _ _ _ _ h => absurd h (Nat.not_lt_zero _)
  | succ steps ih =>
    intro text s more h read input hinput hsteps
    cases h with
    | quote =>
      have hlength : ('"' :: more).length - more.length = 1 := by simp
      rw [quotedFrom, hinput, hlength, List.append_nil]
      rfl
    | @plain c text s _ hplain others =>
      cases hc : isBlank c with
      | true =>
        -- the reader takes a run of blanks at once, so the induction goes on after all of it
        obtain ⟨blanks, text', s', rfl, rfl, hblanks, hstop, hothers⟩ := split_blanks others
        have hall : ∀ d ∈ c :: blanks, isBlank d = true := List.forall_mem_cons.2 ⟨hc, hblanks⟩
        have hgap : Gap.read 0 input.rest.length (.blanks []) input =
            some (.blanks (c :: blanks), input.skip (c :: blanks).length) :=
          Gap.read_blanks hall hstop [] hinput (by rw [hinput]; simp)
        have hrest : (input.skip (c :: blanks).length).rest = text' :=
          Input.rest_skip (c :: blanks) hinput
        have hread := ih hothers ((c :: blanks).reverse ++ read) hrest (by
          simp only [List.length_cons, List.length_append] at hsteps
          omega)
        rw [Input.skip_parts hothers.length_lt.le, List.reverse_append, List.reverse_reverse,
          List.append_assoc] at hread
        have hmarker : (input.skip (c :: blanks).length).atMarker = false :=
          input.atMarker_skip (Nat.zero_lt_succ _)
        rw [quotedFrom, hinput]
        simp only [hc, Bool.true_or, if_true]
        rw [hgap]
        change (if (input.skip (c :: blanks).length).atMarker then none else _) = _
        rw [hmarker]
        exact hread
      | false =>
        have hrest : (input.skip [c].length).rest = text := Input.rest_skip _ hinput
        have hread := ih others (c :: read) hrest (Nat.lt_of_succ_lt_succ hsteps)
        rw [Input.skip_parts others.length_lt.le, List.reverse_cons, List.append_assoc] at hread
        rw [quotedFrom, hinput]
        simp only [hc, hplain.unbroken, hplain.unquoted.1, hplain.unquoted.2]
        exact hread
    | @escape after text s _ d hescape others =>
      have hlength := hescape.length_lt
      obtain ⟨e, taken, rfl, hbreak, hfound⟩ := readEscape_of_spells hescape
      have hnext : input.next.rest = e :: taken ++ text :=
        Input.rest_skip ['\\'] hinput
      have hrest : (input.skip ('\\' :: e :: taken).length).rest = text :=
        Input.rest_skip _ hinput
      have hread := ih others (d :: read) hrest
        (hlength.trans (Nat.lt_of_succ_lt_succ hsteps))
      rw [Input.skip_parts others.length_lt.le, List.reverse_cons, List.append_assoc] at hread
      have hescaped : readEscape input.next =
          some (d, input.skip ('\\' :: e :: taken).length) := by
        rw [hfound hnext, Input.next, Input.skip_skip, Nat.add_comm]
        rfl
      rw [quotedFrom, hinput]
      change (if isBreak e then _ else readEscape input.next >>= _) = _
      rw [hbreak, hescaped]
      exact hread

theorem readQuoted_of_spells {text s more : List Char} (h : Json.SpellsChars text s more)
    {input : Input} (hinput : input.rest = text) :
    ∃ taken, text = taken ++ more ∧
      readQuoted false input = some (s, input.skip taken.length) := by
  obtain ⟨c, taken, htaken⟩ := h.suffix
  have hlength : text.length - more.length = (c :: taken).length := by
    rw [htaken, List.length_append, Nat.add_sub_cancel]
  refine ⟨c :: taken, htaken, ?_⟩
  unfold readQuoted
  rw [hinput, ← hlength]
  exact quotedFrom_of_spells h [] hinput (Nat.lt_succ_self _)

/-! ## Plain scalars -/

/-- A character that does not end a plain scalar, in flow style either. -/
structure IsWordChar (c : Char) : Prop where
  noGap : isBlank c = false ∧ isBreak c = false
  noMark : c ≠ ':' ∧ isFlowMark c = false

instance (c : Char) : Decidable (IsWordChar c) :=
  decidable_of_iff ((isBlank c = false ∧ isBreak c = false) ∧ c ≠ ':' ∧ isFlowMark c = false)
    ⟨fun ⟨a, b⟩ => ⟨a, b⟩, fun ⟨a, b⟩ => ⟨a, b⟩⟩

/-- A word ends here: a gap follows, or a character that ends plain scalars in flow style. -/
def EndsWord (more : List Char) : Prop :=
  ∃ c tail, more = c :: tail ∧ (isBlank c = true ∨ isBreak c = true ∨ isFlowMark c = true)

theorem plainPiece_of_word {word more : List Char} (hword : ∀ c ∈ word, IsWordChar c)
    (hmore : EndsWord more) : ∀ {steps : Nat} (read : List Char) {input : Input},
      input.rest = word ++ more → word.length ≤ steps →
      plainPiece true steps read input = some (read.reverse ++ word, input.skip word.length) := by
  induction word with
  | nil =>
    intro steps read input hinput _
    have hskip : input.skip 0 = input := by simp [Input.skip, byteCount]
    rw [List.append_nil, List.length_nil, hskip]
    cases steps with
    | zero => rfl
    | succ steps =>
      obtain ⟨c, tail, rfl, hc⟩ := hmore
      rw [plainPiece, hinput]
      dsimp only [List.nil_append]
      by_cases hgap : (isBlank c || isBreak c) = true
      · rw [if_pos hgap]
      · obtain ⟨hblank, hbreak⟩ : isBlank c = false ∧ isBreak c = false := by simpa using hgap
        have hmark : isFlowMark c = true := by simpa [hblank, hbreak] using hc
        have hcolon : (c == ':') = false := by
          rw [beq_eq_false_iff_ne]
          rintro rfl
          cases hmark
        rw [if_neg hgap, hcolon, hmark]
        rfl
  | cons c rest ih =>
    intro steps read input hinput hsteps
    obtain ⟨hc, hrest⟩ := List.forall_mem_cons.1 hword
    obtain ⟨steps, rfl⟩ := Nat.exists_eq_add_one_of_ne_zero
      (Nat.ne_zero_of_lt (Nat.lt_of_lt_of_le (Nat.zero_lt_succ _) hsteps))
    have hnext : input.next.rest = rest ++ more := Input.rest_skip [c] hinput
    have hread := ih hrest (c :: read) hnext (Nat.le_of_succ_le_succ hsteps)
    rw [List.reverse_cons, List.append_assoc, Input.next, Input.skip_skip, Nat.add_comm] at hread
    rw [plainPiece, hinput]
    simp only [List.cons_append, hc.noGap.1, hc.noGap.2, hc.noMark.2,
      beq_eq_false_iff_ne.2 hc.noMark.1, Bool.or_self, Bool.false_and, Bool.and_false,
      Bool.false_eq_true, if_false]
    exact hread

section

variable (steps : Nat) (read : List Char) (gap : Gap) {piece : List Char} {input after : Input}

def joined (read : List Char) (gap : Gap) (piece : List Char) : List Char :=
  if piece = [] then read else read ++ gap.text ++ piece

variable {c : Char} {rest : List Char}

theorem plainFrom_ends (hinput : input.rest = c :: rest) (hc : c ≠ '#')
    (hmarker : input.atMarker = false)
    (hpiece : plainPiece true input.rest.length [] input = some (piece, after))
    (hends : ∃ d tail, after.rest = d :: tail ∧ isBlank d = false ∧ isBreak d = false) :
    ∃ broke, plainFrom true 0 (steps + 1) read gap input =
      some ⟨joined read gap piece, broke, after⟩ := by
  obtain ⟨d, tail, hafter, hblank, hbreak⟩ := hends
  simp only [plainFrom, hmarker, hpiece, Bool.false_or]
  rw [hinput]
  split
  · rename_i h
    simp [hc] at h
  · simp only [Bool.false_eq_true, if_false, Option.bind_eq_bind, Option.bind_some, hafter, hblank,
      hbreak, Bool.or_self]
    exact ⟨_, rfl⟩

theorem plainFrom_continues {found : Gap} {next : Input} (hinput : input.rest = c :: rest)
    (hc : c ≠ '#') (hmarker : input.atMarker = false)
    (hpiece : plainPiece true input.rest.length [] input = some (piece, after))
    (hgap : ∃ d tail, after.rest = d :: tail ∧ (isBlank d || isBreak d) = true)
    (hfound : Gap.read 0 after.rest.length (if piece = [] then gap else .blanks []) after =
      some (found, next)) :
    plainFrom true 0 (steps + 1) read gap input =
      plainFrom true 0 steps (joined read gap piece) found next := by
  obtain ⟨d, tail, hafter, hd⟩ := hgap
  simp only [plainFrom, hmarker, hpiece, Bool.false_or]
  rw [hinput]
  split
  · rename_i h
    simp [hc] at h
  · simp only [Bool.false_eq_true, if_false, Option.bind_eq_bind, Option.bind_some, hfound,
      Bool.not_true, Bool.false_and]
    simp only [hafter, hd, if_true]
    rfl

end

theorem startsMarker_of_ne {c d : Char} (h : d ≠ c) (rest : List Char) :
    startsMarker c (d :: rest) = false := by
  unfold startsMarker
  split
  · rename_i heq
    obtain ⟨rfl, -⟩ := List.cons.inj heq
    simp [h]
  · rfl

theorem Input.atMarker_of_ne {input : Input} {c : Char} {rest : List Char}
    (hinput : input.rest = c :: rest) (hc : c ≠ '-' ∧ c ≠ '.') : input.atMarker = false := by
  unfold atMarker
  rw [hinput, startsMarker_of_ne hc.1, startsMarker_of_ne hc.2]
  exact Bool.and_false _

theorem EndsWord.of_endsPart {more : List Char} (h : Json.EndsPart more) : EndsWord more := by
  obtain ⟨c, tail, hafter, hc⟩ := h
  cases more with
  | nil => cases hafter
  | cons d rest =>
    refine ⟨d, rest, rfl, ?_⟩
    cases hspace : Json.Cursor.isSpace d with
    | true =>
      have hd : (isBlank d = true ∨ d = '\n') ∨ d = '\r' := by
        simpa [isSpace_eq] using hspace
      obtain (hd | rfl) | rfl := hd
      · exact .inl hd
      · exact .inr (.inl rfl)
      · exact .inr (.inl rfl)
    | false =>
      rw [Json.afterBlanks_cons hspace] at hafter
      obtain ⟨rfl, -⟩ := List.cons.inj hafter
      obtain rfl | rfl | rfl := hc
      all_goals exact .inr (.inr rfl)

/-- A plain scalar in flow style ends where, after a gap, a comma or a collection ends it. -/
theorem readPlain_of_word {word more : List Char} (hword : ∀ c ∈ word, IsWordChar c)
    (hmore : Json.EndsPart more) {input : Input} (hinput : input.rest = word ++ more)
    (hstart : ∃ c rest, word = c :: rest ∧ c ≠ '#') (hmarker : input.atMarker = false) :
    ∃ broke after, readPlain true 0 input = some ⟨word, broke, after⟩ ∧
      after.rest = Json.afterBlanks more := by
  obtain ⟨c, rest, rfl, hc⟩ := hstart
  have hends := EndsWord.of_endsPart hmore
  obtain ⟨d, tail, hafter, hd⟩ := hmore
  obtain ⟨hdcomment, hdmarker, hdgap⟩ : d ≠ '#' ∧ (d ≠ '-' ∧ d ≠ '.') ∧
      isBlank d = false ∧ isBreak d = false := by
    obtain rfl | rfl | rfl := hd
    all_goals decide
  have hpiece : plainPiece true input.rest.length [] input =
      some (c :: rest, input.skip (c :: rest).length) :=
    plainPiece_of_word hword hends [] hinput (by simp [hinput])
  have hrest : (input.skip (c :: rest).length).rest = more := Input.rest_skip _ hinput
  obtain ⟨e, tail', rfl, -⟩ := hends
  unfold readPlain
  -- the scalar ends at once, or a gap is read before its end can be seen
  cases hspace : Json.Cursor.isSpace e with
  | false =>
    rw [Json.afterBlanks_cons hspace] at hafter ⊢
    obtain ⟨rfl, rfl⟩ := List.cons.inj hafter
    obtain ⟨broke, hread⟩ := plainFrom_ends input.rest.length [] (.blanks []) hinput hc
      hmarker hpiece ⟨e, tail', hrest, hdgap⟩
    exact ⟨broke, _, hread, hrest⟩
  | true =>
    have hgap : (isBlank e || isBreak e) = true := by
      rw [isSpace_eq] at hspace
      unfold isBreak
      cases hblank : isBlank e
      · simpa [hblank, or_assoc] using Or.inl hspace
      · rfl
    obtain ⟨found, next, hfound, hnext⟩ :=
      Gap.read_to_end (.blanks []) (input.skip (c :: rest).length) (le_refl _)
        ⟨d, tail, hrest ▸ hafter, hdgap⟩
    rw [hrest] at hnext
    have hlength : input.rest.length = (rest ++ e :: tail').length + 1 := by rw [hinput]; rfl
    have hnone : plainPiece true next.rest.length [] next = some ([], next.skip 0) :=
      plainPiece_of_word (List.forall_mem_nil _) ⟨d, tail, hnext.trans hafter, by
        obtain rfl | rfl | rfl := hd
        all_goals decide⟩ [] rfl (Nat.zero_le _)
    have hon := plainFrom_continues input.rest.length [] (.blanks []) hinput hc hmarker hpiece
      ⟨e, tail', hrest, hgap⟩ hfound
    obtain ⟨broke, hlast⟩ := plainFrom_ends (rest ++ e :: tail').length
      (joined [] (.blanks []) (c :: rest)) found (hnext.trans hafter) hdcomment
      (Input.atMarker_of_ne (hnext.trans hafter) hdmarker) hnone
      ⟨d, tail, hnext.trans hafter, hdgap⟩
    rw [← hlength, ← hon] at hlast
    exact ⟨broke, _, hlast, hnext⟩

end PayloadMapping.Yaml
