import PayloadMapping.Yaml.Lexer
import PayloadMapping.Proofs.Yaml.Scalar

set_option autoImplicit false

/-!
# Between tokens

Before a token the lexer passes blanks and line breaks and forgets the places of keys that are
too far away. Where no block collection is open, and no place of a key is required to become one,
nothing else happens.
-/

namespace PayloadMapping.Yaml

namespace Lexer

/-- No block collection is open, and no place of a key is required to become one. -/
structure IsFree (lexer : Lexer) : Prop where
  indent : lexer.indent = -1
  outer : lexer.outer = []
  free : ∀ start, some start ∈ lexer.key :: lexer.outerKeys → start.required = false

theorem dropStale_ok (mark : Mark) (key : Option KeyStart)
    (h : ∀ start, key = some start → start.required = false) :
    ∃ kept, dropStale mark key = some kept ∧ (kept = key ∨ kept = none) ∧
      ∀ start, key = some start → isStale start mark = false → kept = some start := by
  cases key with
  | none => exact ⟨none, rfl, .inl rfl, fun _ h => by cases h⟩
  | some start =>
    have hfree := h start rfl
    unfold dropStale
    dsimp only
    cases hstale : isStale start mark with
    | true =>
      refine ⟨none, by simp [hfree], .inr rfl, ?_⟩
      intro other hother hfresh
      obtain rfl := Option.some.inj hother
      rw [hstale] at hfresh
      cases hfresh
    | false => exact ⟨some start, by simp, .inl rfl, fun _ h _ => h⟩

theorem mapM_dropStale_ok (mark : Mark) (keys : List (Option KeyStart))
    (h : ∀ start, some start ∈ keys → start.required = false) :
    ∃ kept, keys.mapM (dropStale mark) = some kept ∧ kept.length = keys.length ∧
      ∀ start, some start ∈ kept → some start ∈ keys := by
  induction keys with
  | nil => exact ⟨[], rfl, rfl, fun _ h => h⟩
  | cons key rest ih =>
    obtain ⟨first, hfirst, hor, -⟩ := dropStale_ok mark key
      fun start hstart => h start (hstart ▸ List.mem_cons_self)
    obtain ⟨others, hothers, hlength, hsub⟩ := ih fun start hmem =>
      h start (List.mem_cons_of_mem _ hmem)
    refine ⟨first :: others, ?_, by simp [hlength], ?_⟩
    · rw [List.mapM_cons, hfirst, hothers]
      rfl
    · intro start hmem
      obtain hmem | hmem := List.mem_cons.1 hmem
      · obtain rfl | rfl := hor
        · exact hmem ▸ List.mem_cons_self
        · cases hmem
      · exact List.mem_cons_of_mem _ (hsub start hmem)

theorem dropStaleKeys_ok {lexer : Lexer} (h : lexer.IsFree) :
    ∃ key outerKeys, lexer.dropStaleKeys = some { lexer with key := key, outerKeys := outerKeys } ∧
      outerKeys.length = lexer.outerKeys.length ∧
      (∀ start, some start ∈ key :: outerKeys → start.required = false) ∧
      ∀ start, lexer.key = some start → isStale start lexer.mark = false → key = some start := by
  obtain ⟨key, hkey, hor, hkept⟩ := dropStale_ok lexer.mark lexer.key
    fun start hstart => h.free start (hstart ▸ List.mem_cons_self)
  obtain ⟨outerKeys, houter, hlength, hsub⟩ := mapM_dropStale_ok lexer.mark
    lexer.outerKeys fun start hmem => h.free start (List.mem_cons_of_mem _ hmem)
  refine ⟨key, outerKeys, ?_, hlength, ?_, hkept⟩
  · unfold dropStaleKeys
    rw [hkey, houter]
    rfl
  · intro start hmem
    obtain hmem | hmem := List.mem_cons.1 hmem
    · refine h.free start ?_
      obtain rfl | rfl := hor
      · exact hmem ▸ List.mem_cons_self
      · cases hmem
    · exact h.free start (List.mem_cons_of_mem _ (hsub start hmem))

/-! ## Gaps between tokens -/

/-- The blanks at the start of a text may be passed: they have no tabs, unless a collection in
flow style is open. -/
def MayPass (lexer : Lexer) : Prop :=
  lexer.inFlow = true ∨ '\t' ∉ lexer.input.rest.takeWhile Json.Cursor.isSpace

def IsTokenStart (c : Char) : Prop :=
  isBlank c = false ∧ isBreak c = false ∧ c ≠ '#' ∧ c ≠ '\ufeff'

def StartsToken (text : List Char) : Prop :=
  ∀ c tail, Json.afterBlanks text = c :: tail → IsTokenStart c

theorem skipWhile_blanks (test : Char → Bool) (input : Input)
    (htest : ∀ c, test c = true → isBlank c = true)
    (hblanks : ∀ c ∈ input.rest.takeWhile Json.Cursor.isSpace, isBlank c = true → test c = true) :
    ∃ blanks, input.rest = blanks ++ (input.skipWhile test).rest ∧
      (∀ c ∈ blanks, Json.Cursor.isSpace c = true) ∧
      ∀ d more, (input.skipWhile test).rest = d :: more →
        (isBreak d = true ∧ Json.Cursor.isSpace d = true) ∨
          Json.afterBlanks input.rest = d :: more := by
  have hsplit := List.takeWhile_append_dropWhile (p := test) (l := input.rest)
  have hrest : (input.skipWhile test).rest = input.rest.dropWhile test :=
    Input.rest_skip _ hsplit.symm
  have hall : ∀ c ∈ input.rest.takeWhile test, Json.Cursor.isSpace c = true :=
    fun c hc => isSpace_of_isBlank (htest c (List.all_eq_true.1 List.all_takeWhile c hc))
  refine ⟨input.rest.takeWhile test, by rw [hrest, hsplit], hall, ?_⟩
  intro d more hd
  rw [hrest] at hd
  rw [hd] at hsplit
  cases hspace : Json.Cursor.isSpace d with
  | false =>
    right
    rw [← hsplit, afterBlanks_append hall, Json.afterBlanks_cons hspace]
  | true =>
    left
    refine ⟨?_, rfl⟩
    have hfails : test d = false := by
      have hhead := List.head?_dropWhile_not test input.rest
      rwa [hd] at hhead
    have hmem : d ∈ input.rest.takeWhile Json.Cursor.isSpace := by
      rw [← hsplit, List.takeWhile_append_of_pos hall, List.takeWhile_cons_of_pos hspace]
      simp
    have hblank : isBlank d = false := by
      by_contra hblank
      rw [hblanks d hmem (by simpa using hblank)] at hfails
      cases hfails
    rw [isSpace_eq, hblank] at hspace
    simpa [isBreak, or_assoc] using Or.inl hspace

theorem isPassed_of_mayPass {lexer : Lexer} (h : lexer.MayPass) {c : Char}
    (hc : c ∈ lexer.input.rest.takeWhile Json.Cursor.isSpace) (hblank : isBlank c = true) :
    (c == ' ' || ((lexer.inFlow || !lexer.keyAllowed) && c == '\t')) = true := by
  obtain hflow | htab := h
  · simpa [hflow, isBlank] using hblank
  · have hne : c ≠ '\t' := fun h => htab (h ▸ hc)
    simpa [isBlank, hne] using hblank

theorem isBlank_of_isPassed {lexer : Lexer} {c : Char}
    (h : (c == ' ' || ((lexer.inFlow || !lexer.keyAllowed) && c == '\t')) = true) :
    isBlank c = true := by
  unfold isBlank
  cases hspace : c == ' ' with
  | true => rfl
  | false =>
    simp only [hspace, Bool.false_or, Bool.and_eq_true] at h
    exact h.2

/-- The blanks are passed to what follows them, or to the end of a line and over its break. -/
theorem skipToToken_step {lexer : Lexer} (hpass : lexer.MayPass)
    (hstart : StartsToken lexer.input.rest) (steps : Nat) :
    (∃ mark, skipToToken (steps + 1) lexer =
      { lexer with input := ⟨Json.afterBlanks lexer.input.rest, mark⟩ }) ∨
    ∃ next spaces, lexer.input.rest = spaces ++ next.rest ∧ spaces ≠ [] ∧
      (∀ c ∈ spaces, Json.Cursor.isSpace c = true) ∧
      skipToToken (steps + 1) lexer = skipToToken steps
        { lexer with
          input := next
          keyAllowed := lexer.keyAllowed || !lexer.inFlow } := by
  have horder : (lexer.mark.column == 0 && lexer.input.rest.head? == some '\ufeff') = false := by
    cases hrest : lexer.input.rest with
    | nil => simp
    | cons c tail =>
      have hc : c ≠ '\ufeff' := by
        rintro rfl
        exact (hstart _ tail (by rw [hrest]; rfl)).2.2.2 rfl
      simp [hc]
  obtain ⟨blanks, hblanks, hall, hnext⟩ := skipWhile_blanks
    (fun c => c == ' ' || ((lexer.inFlow || !lexer.keyAllowed) && c == '\t')) lexer.input
    (fun _ => isBlank_of_isPassed) (fun _ => isPassed_of_mayPass hpass)
  rw [skipToToken]
  simp only [horder, Bool.false_eq_true, if_false]
  generalize lexer.input.skipWhile _ = passed at *
  obtain ⟨rest, mark⟩ := passed
  have hafter : Json.afterBlanks lexer.input.rest = Json.afterBlanks rest := by
    rw [hblanks, afterBlanks_append hall]
  cases rest with
  | nil => exact .inl ⟨mark, by rw [hafter]; rfl⟩
  | cons d more =>
    have hcomment : d ≠ '#' := by
      rintro rfl
      obtain ⟨hbreak, -⟩ | hstop := hnext _ more rfl
      · cases hbreak
      · exact (hstart _ more hstop).2.2.1 rfl
    have hsame : Input.skipComment ⟨d :: more, mark⟩ = ⟨d :: more, mark⟩ :=
      if_neg fun h => hcomment (Option.some.inj h)
    rw [hsame]
    dsimp only
    -- the blanks end at a line break, or where a token starts
    obtain ⟨hbreak, hspace⟩ | hstop := hnext d more rfl
    · obtain ⟨taken, htaken, hspaces⟩ :=
        Input.readBreak_rest ⟨d :: more, mark⟩ rfl hbreak hspace
      refine .inr ⟨Input.skipBreak ⟨d :: more, mark⟩, blanks ++ (d :: taken), ?_, by simp,
        List.forall_mem_append.2 ⟨hall, hspaces⟩, if_pos hbreak⟩
      rw [List.append_assoc]
      exact hblanks.trans (congrArg (blanks ++ ·) htaken)
    · obtain ⟨-, hbreak, -⟩ := hstart d more hstop
      refine .inl ⟨mark, ?_⟩
      rw [hstop, hbreak]
      rfl

theorem skipToToken_ok {steps : Nat} : ∀ {lexer : Lexer}, lexer.input.rest.length < steps →
    lexer.MayPass → StartsToken lexer.input.rest →
    ∃ mark allowed, skipToToken steps lexer =
        { lexer with
          input := ⟨Json.afterBlanks lexer.input.rest, mark⟩
          keyAllowed := allowed } ∧
      (lexer.keyAllowed = true → allowed = true) := by
  induction steps with
  | zero => exact fun h => absurd h (Nat.not_lt_zero _)
  | succ steps ih =>
    intro lexer hsteps hpass hstart
    obtain ⟨mark, hskip⟩ | ⟨next, spaces, hrest, hsome, hspaces, hskip⟩ :=
      skipToToken_step hpass hstart steps
    · exact ⟨mark, lexer.keyAllowed, hskip, id⟩
    have hafter : Json.afterBlanks next.rest = Json.afterBlanks lexer.input.rest := by
      rw [hrest, afterBlanks_append hspaces]
    have hlength : next.rest.length < steps := by
      have hpos := List.length_pos_of_ne_nil hsome
      rw [hrest, List.length_append] at hsteps
      omega
    have hpass' : MayPass { lexer with
        input := next
        keyAllowed := lexer.keyAllowed || !lexer.inFlow } := by
      refine hpass.imp id fun htab hmem => htab ?_
      rw [hrest, List.takeWhile_append_of_pos hspaces]
      exact List.mem_append_right _ hmem
    obtain ⟨last, allowed, hfound, hallowed⟩ := ih hlength hpass' fun c tail hc =>
      hstart c tail (hafter.symm.trans hc)
    refine ⟨last, allowed, ?_, fun hkey => hallowed (by simp [hkey])⟩
    rw [hskip, hfound]
    dsimp only
    rw [hafter]

theorem skipToToken_line {lexer : Lexer} {gap tail : List Char} {c : Char} (steps : Nat)
    (hflow : lexer.inFlow = true) (hrest : lexer.input.rest = gap ++ c :: tail)
    (hgap : ∀ d ∈ gap, isBlank d = true) (hc : IsTokenStart c) :
    skipToToken (steps + 1) lexer = { lexer with input := lexer.input.skip gap.length } := by
  have horder : (lexer.mark.column == 0 && lexer.input.rest.head? == some '\ufeff') = false := by
    rw [hrest]
    cases gap with
    | nil => simp [hc.2.2.2]
    | cons d more =>
      have hd : d ≠ '\ufeff' := by
        rintro rfl
        cases hgap _ List.mem_cons_self
      simp [hd]
  have htest : (fun c => c == ' ' || ((lexer.inFlow || !lexer.keyAllowed) && c == '\t')) =
      isBlank := by
    funext c
    rw [hflow]
    rfl
  have hpassed : lexer.input.skipWhile isBlank = lexer.input.skip gap.length := by
    have htake : lexer.input.rest.takeWhile isBlank = gap := by
      rw [hrest, List.takeWhile_append_of_pos hgap, List.takeWhile_cons_of_neg (by simp [hc.1]),
        List.append_nil]
    rw [Input.skipWhile, Input.takeWhile, htake]
  have hafter : (lexer.input.skip gap.length).rest = c :: tail := Input.rest_skip _ hrest
  have hsame : (lexer.input.skip gap.length).skipComment = lexer.input.skip gap.length := by
    refine if_neg fun h => hc.2.2.1 ?_
    rw [hafter] at h
    exact Option.some.inj h
  rw [skipToToken]
  simp only [horder, Bool.false_eq_true, if_false, htest, hpassed, hsame, hafter, hc.2.1]

end Lexer

end PayloadMapping.Yaml
