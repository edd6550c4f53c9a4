import PayloadMapping.Proofs.Yaml.Gaps
import PayloadMapping.Proofs.Yaml.Word

set_option autoImplicit false

/-!
# Tokens in flow style

Inside of a collection in flow style every step of the lexer takes a token, whatever blanks, tabs
and line breaks stand before it. What it takes from a text that JSON and YAML share is told here
token by token.
-/

namespace PayloadMapping.Yaml

namespace Lexer

def kinds (lexer : Lexer) : List TokenKind := lexer.tokens.reverse.map Token.kind

def Leaves (text rest : List Char) : Prop :=
  ∃ blanks, text = blanks ++ rest ∧ ∀ c ∈ blanks, Json.Cursor.isSpace c = true

theorem Leaves.of_eq {text rest : List Char} (h : rest = text) : Leaves text rest :=
  ⟨[], h.symm, by simp⟩

theorem Leaves.of_afterBlanks {text rest : List Char} (h : Json.afterBlanks text = rest) :
    Leaves text rest :=
  ⟨text.takeWhile Json.Cursor.isSpace, h ▸ List.takeWhile_append_dropWhile.symm,
    fun c hc => List.all_eq_true.1 List.all_takeWhile c hc⟩

theorem Leaves.afterBlanks_eq {text rest : List Char} (h : Leaves text rest) :
    Json.afterBlanks rest = Json.afterBlanks text := by
  obtain ⟨blanks, rfl, hblanks⟩ := h
  exact (afterBlanks_append hblanks rest).symm

/-- The lexer stands before a text, perhaps with blanks before it, inside of `depth` collections
in flow style. A key may start there if `keys` is set. -/
structure IsAt (lexer : Lexer) (text : List Char) (found : List TokenKind) (depth : Nat)
    (keys : Bool) : Prop extends lexer.IsFree where
  text : Leaves text lexer.input.rest
  kinds : lexer.kinds = found
  depth : lexer.outerKeys.length = depth
  unended : TokenKind.streamEnd ∉ found
  allowed : keys = true → lexer.keyAllowed = true

/-! ## Steps -/

theorem unroll_eq {lexer : Lexer} (h : lexer.outer = []) (column : Int) :
    lexer.unroll column = lexer := by
  obtain ⟨input, tokens, indent, outer, keyAllowed, key, outerKeys⟩ := lexer
  obtain rfl : outer = [] := h
  unfold unroll
  split <;> rfl

theorem dropKey_ok {lexer : Lexer} (h : lexer.IsFree) :
    lexer.dropKey = some { lexer with key := none } := by
  obtain ⟨input, tokens, indent, outer, keyAllowed, key, outerKeys⟩ := lexer
  cases key with
  | none => rfl
  | some start =>
    have hfree : start.required = false := h.free start List.mem_cons_self
    simp [dropKey, hfree]

theorem saveKey_ok {lexer : Lexer} (h : lexer.IsFree) :
    ∃ key, lexer.saveKey = some { lexer with key := key } ∧
      (∀ start, key = some start → start.required = false) ∧
      (lexer.keyAllowed = true → key = some ⟨false, lexer.tokens.length, lexer.mark⟩) := by
  by_cases hkey : lexer.keyAllowed = true
  · have hrequired : (!lexer.inFlow && lexer.indent == lexer.column) = false := by
      have hcolumn : (lexer.indent == lexer.column) = false := by
        rw [h.indent, beq_eq_false_iff_ne]
        unfold column
        omega
      rw [hcolumn, Bool.and_false]
    refine ⟨some ⟨false, lexer.tokens.length, lexer.mark⟩, ?_, ?_, fun _ => rfl⟩
    · simp only [saveKey, hkey, if_true, hrequired, dropKey_ok h]
      rfl
    · intro start hstart
      exact (Option.some.inj hstart) ▸ rfl
  · refine ⟨lexer.key, if_neg hkey, ?_, fun h => absurd h hkey⟩
    exact fun start hstart => h.free start (hstart ▸ List.mem_cons_self)

theorem inFlow_of_isAt {lexer : Lexer} {text : List Char} {found : List TokenKind} {depth : Nat}
    {keys : Bool} (h : lexer.IsAt text found (depth + 1) keys) : lexer.inFlow = true := by
  unfold inFlow
  have hdepth := h.depth
  cases hkeys : lexer.outerKeys with
  | nil =>
    rw [hkeys] at hdepth
    cases hdepth
  | cons => rfl

theorem isDone_of_isAt {lexer : Lexer} {text : List Char} {found : List TokenKind} {depth : Nat}
    {keys : Bool} (h : lexer.IsAt text found depth keys) : lexer.isDone = false := by
  have hkinds := h.kinds
  have hunended := h.unended
  unfold isDone
  cases htokens : lexer.tokens with
  | nil => rfl
  | cons token rest =>
    have hmem : token.kind ∈ found := by
      rw [← hkinds, Lexer.kinds, htokens]
      exact List.mem_map_of_mem (List.mem_reverse.2 List.mem_cons_self)
    dsimp only
    rw [beq_eq_false_iff_ne]
    exact fun hend => hunended (hend ▸ hmem)

/-- The lexer gets from one place to another in some steps, each of which takes characters. -/
def Reaches (lexer next : Lexer) : Prop :=
  ∃ count, count + next.input.rest.length ≤ lexer.input.rest.length ∧
    ∀ steps, run (steps + count) lexer = run steps next

theorem Reaches.trans {lexer between next : Lexer} (h : lexer.Reaches between)
    (h' : between.Reaches next) : lexer.Reaches next := by
  obtain ⟨first, hfirst, hrun⟩ := h
  obtain ⟨second, hsecond, hrun'⟩ := h'
  refine ⟨second + first, by omega, fun steps => ?_⟩
  rw [← Nat.add_assoc, hrun, hrun']

theorem Reaches.of_step {lexer next : Lexer} (hstep : lexer.step = some next)
    (hdone : next.isDone = false) (hlength : next.input.rest.length < lexer.input.rest.length) :
    lexer.Reaches next := by
  refine ⟨1, by omega, fun steps => ?_⟩
  rw [run, hstep]
  simp only [hdone, Bool.false_eq_true, if_false]

section

variable {lexer : Lexer} {text rest : List Char} {found : List TokenKind} {depth : Nat}
  {keys : Bool} {c : Char}

theorem step_of_skip {passed kept : Lexer}
    (hskip : skipToToken (lexer.input.rest.length + 1) lexer = passed)
    (hdrop : passed.dropStaleKeys = some kept) (houter : kept.outer = [])
    (hrest : kept.input.rest = c :: rest) :
    lexer.step = (kept.takeToken c rest).bind dropStaleKeys := by
  unfold step
  rw [hskip, hdrop]
  simp only [Option.bind_eq_bind, Option.bind_some, unroll_eq houter, hrest]

/-- A step gets to the next token, takes it and drops stale keys. -/
theorem step_eq (h : lexer.IsAt text found depth keys) (hpass : lexer.MayPass)
    (hstart : Json.afterBlanks text = c :: rest) (hc : IsTokenStart c) :
    ∃ ready : Lexer, ready.IsAt text found depth keys ∧ ready.input.rest = c :: rest ∧
      lexer.step = (ready.takeToken c rest).bind dropStaleKeys := by
  have hnext : Json.afterBlanks lexer.input.rest = c :: rest := h.text.afterBlanks_eq.trans hstart
  obtain ⟨mark, allowed, hskip, hallowed⟩ := skipToToken_ok (Nat.lt_succ_self _) hpass (by
    intro d tail hd
    obtain ⟨rfl, -⟩ := List.cons.inj (hnext.symm.trans hd)
    exact hc)
  rw [hnext] at hskip
  have hfree : IsFree { lexer with input := ⟨c :: rest, mark⟩, keyAllowed := allowed } :=
    ⟨h.indent, h.outer, h.free⟩
  obtain ⟨key, outerKeys, hdrop, hlength, hkeys, -⟩ := dropStaleKeys_ok hfree
  refine ⟨{ lexer with
    input := ⟨c :: rest, mark⟩
    keyAllowed := allowed
    key := key
    outerKeys := outerKeys }, ?_, rfl, step_of_skip hskip hdrop h.outer rfl⟩
  exact ⟨⟨h.indent, h.outer, hkeys⟩, .of_afterBlanks hstart, h.kinds, hlength.trans h.depth,
    h.unended, fun hkeys => hallowed (h.allowed hkeys)⟩

theorem dropStaleKeys_isAt (h : lexer.IsAt text found depth keys) :
    ∃ next : Lexer, lexer.dropStaleKeys = some next ∧ next.IsAt text found depth keys ∧
      next.input = lexer.input ∧ next.tokens = lexer.tokens ∧
      ∀ start, lexer.key = some start → isStale start lexer.mark = false →
        next.key = some start := by
  obtain ⟨key, outerKeys, hdrop, hlength, hkeys, hkept⟩ := dropStaleKeys_ok h.toIsFree
  exact ⟨_, hdrop, ⟨⟨h.indent, h.outer, hkeys⟩, h.text, h.kinds, hlength.trans h.depth,
    h.unended, h.allowed⟩, rfl, rfl, hkept⟩

theorem IsAt.length_le {cs : List Char} (h : lexer.IsAt text found depth keys)
    (hstart : Json.afterBlanks text = cs) : cs.length ≤ lexer.input.rest.length := by
  rw [← hstart, ← h.text.afterBlanks_eq]
  exact Json.length_afterBlanks_le _

theorem IsAt.more {taken : Lexer} (tokens : List Token) {text' : List Char} {depth' : Nat}
    {keys' : Bool} (h : lexer.IsAt text found depth keys)
    (htokens : taken.tokens = tokens ++ lexer.tokens)
    (hend : TokenKind.streamEnd ∉ tokens.map Token.kind) (hindent : taken.indent = lexer.indent)
    (houter : taken.outer = lexer.outer) (hdepth : taken.outerKeys.length = depth')
    (htext : Leaves text' taken.input.rest) (hallowed : keys' = true → taken.keyAllowed = true)
    (hfree : ∀ start, some start ∈ taken.key :: taken.outerKeys → start.required = false) :
    taken.IsAt text' (found ++ tokens.reverse.map Token.kind) depth' keys' := by
  refine ⟨⟨hindent.trans h.indent, houter.trans h.outer, hfree⟩, htext, ?_, hdepth, ?_, hallowed⟩
  · rw [← h.kinds, Lexer.kinds, htokens]
    simp [Lexer.kinds]
  · rw [List.mem_append, not_or]
    refine ⟨h.unended, ?_⟩
    rwa [List.map_reverse, List.mem_reverse]

theorem reaches_of_take (h : lexer.IsAt text found depth keys) (hpass : lexer.MayPass)
    (hstart : Json.afterBlanks text = c :: rest) (hc : IsTokenStart c) {text' : List Char}
    {found' : List TokenKind} {depth' : Nat} {keys' : Bool}
    (htake : ∀ ready : Lexer, ready.IsAt text found depth keys → ready.input.rest = c :: rest →
      ∃ taken : Lexer, ready.takeToken c rest = some taken ∧
        taken.IsAt text' found' depth' keys' ∧
        taken.input.rest.length < ready.input.rest.length) :
    ∃ next : Lexer, lexer.Reaches next ∧ next.IsAt text' found' depth' keys' := by
  obtain ⟨ready, hready, hrest, hstep⟩ := step_eq h hpass hstart hc
  obtain ⟨taken, htaken, hat, hlength⟩ := htake ready hready hrest
  obtain ⟨next, hdrop, hnext, hinput, -⟩ := dropStaleKeys_isAt hat
  refine ⟨next, .of_step ?_ (isDone_of_isAt hnext) ?_, hnext⟩
  · rw [hstep, htaken]
    exact hdrop
  · rw [hinput]
    exact hlength.trans_le (hrest ▸ h.length_le hstart)

theorem length_skip_lt {input : Input} (hrest : input.rest = c :: rest) :
    (input.skip 1).rest.length < input.rest.length := by
  have hafter : (input.skip 1).rest = rest := Input.rest_skip [c] hrest
  rw [hafter, hrest]
  exact Nat.lt_succ_self _

theorem takes_open {kind : TokenKind} (h : lexer.IsAt text found depth keys) (hpass : lexer.MayPass)
    (hstart : Json.afterBlanks text = c :: rest)
    (hkind : c = '[' ∧ kind = .flowSequenceStart ∨ c = '\x7b' ∧ kind = .flowMappingStart) :
    ∃ next : Lexer, lexer.Reaches next ∧ next.IsAt rest (found ++ [kind]) (depth + 1) true := by
  have hc : IsTokenStart c := by
    obtain ⟨rfl, -⟩ | ⟨rfl, -⟩ := hkind
    all_goals exact ⟨rfl, rfl, by decide, by decide⟩
  have hend : TokenKind.streamEnd ∉ [kind] := by
    obtain ⟨-, rfl⟩ | ⟨-, rfl⟩ := hkind
    all_goals decide
  refine reaches_of_take h hpass hstart hc fun ready hready hrest => ?_
  obtain ⟨key, hsave, hkey, -⟩ := saveKey_ok hready.toIsFree
  have hafter : (ready.input.skip 1).rest = rest := Input.rest_skip [c] hrest
  have htoken : ready.takeToken c rest = ready.takeFlowStart kind := by
    obtain ⟨rfl, rfl⟩ | ⟨rfl, rfl⟩ := hkind
    all_goals simp [takeToken, startsMarker_of_ne]
  have htaken : ready.takeToken c rest = some
      { ready.emitChars kind 1 with
        key := none
        outerKeys := key :: ready.outerKeys
        keyAllowed := true } := by
    rw [htoken, takeFlowStart, hsave]
    rfl
  refine ⟨_, htaken, ?_, length_skip_lt hrest⟩
  refine hready.more [⟨kind, ready.mark, (ready.input.skip 1).mark⟩] rfl hend rfl rfl
    (congrArg Nat.succ hready.depth) (.of_eq hafter) (fun _ => rfl) ?_
  intro start hmem
  obtain hmem | hmem := List.mem_cons.1 hmem
  · cases hmem
  obtain hmem | hmem := List.mem_cons.1 hmem
  · exact hkey start hmem.symm
  · exact hready.free start (List.mem_cons_of_mem _ hmem)

theorem takes_close {kind : TokenKind} (h : lexer.IsAt text found (depth + 1) keys)
    (hstart : Json.afterBlanks text = c :: rest)
    (hkind : c = ']' ∧ kind = .flowSequenceEnd ∨ c = '\x7d' ∧ kind = .flowMappingEnd) :
    ∃ next : Lexer, lexer.Reaches next ∧ next.IsAt rest (found ++ [kind]) depth false := by
  have hc : IsTokenStart c := by
    obtain ⟨rfl, -⟩ | ⟨rfl, -⟩ := hkind
    all_goals exact ⟨rfl, rfl, by decide, by decide⟩
  have hend : TokenKind.streamEnd ∉ [kind] := by
    obtain ⟨-, rfl⟩ | ⟨-, rfl⟩ := hkind
    all_goals decide
  refine reaches_of_take h (.inl (inFlow_of_isAt h)) hstart hc fun ready hready hrest => ?_
  have hafter : (ready.input.skip 1).rest = rest := Input.rest_skip [c] hrest
  have htoken : ready.takeToken c rest = ready.takeFlowEnd kind := by
    obtain ⟨rfl, rfl⟩ | ⟨rfl, rfl⟩ := hkind
    all_goals simp [takeToken, startsMarker_of_ne]
  obtain ⟨key, outerKeys, houter⟩ := List.exists_cons_of_length_eq_add_one hready.depth
  have htaken : ready.takeToken c rest = some
      { ready.emitChars kind 1 with
        key := key
        outerKeys := outerKeys
        keyAllowed := false } := by
    rw [htoken, takeFlowEnd, dropKey_ok hready.toIsFree]
    obtain ⟨input, tokens, indent, outer, keyAllowed, inner, _⟩ := ready
    obtain rfl : _ = key :: outerKeys := houter
    rfl
  have hdepth := hready.depth
  rw [houter] at hdepth
  refine ⟨_, htaken, ?_, length_skip_lt hrest⟩
  refine hready.more [⟨kind, ready.mark, (ready.input.skip 1).mark⟩] rfl hend rfl rfl
    (Nat.succ.inj hdepth) (.of_eq hafter) (by simp) ?_
  intro start hmem
  exact hready.free start (List.mem_cons_of_mem _ (houter ▸ hmem))

theorem takes_comma (h : lexer.IsAt text found (depth + 1) keys)
    (hstart : Json.afterBlanks text = ',' :: rest) :
    ∃ next : Lexer, lexer.Reaches next ∧
      next.IsAt rest (found ++ [.flowEntry]) (depth + 1) true := by
  refine reaches_of_take h (.inl (inFlow_of_isAt h)) hstart ⟨rfl, rfl, by decide, by decide⟩
    fun ready hready hrest => ?_
  have hafter : (ready.input.skip 1).rest = rest := Input.rest_skip [','] hrest
  have htoken : ready.takeToken ',' rest = ready.takeFlowEntry := by
    simp [takeToken, startsMarker_of_ne]
  have htaken : ready.takeToken ',' rest = some
      { ready.emitChars .flowEntry 1 with
        key := none
        keyAllowed := true } := by
    rw [htoken, takeFlowEntry, dropKey_ok hready.toIsFree]
    rfl
  refine ⟨_, htaken, ?_, length_skip_lt hrest⟩
  refine hready.more [⟨.flowEntry, ready.mark, (ready.input.skip 1).mark⟩] rfl (by simp) rfl rfl
    hready.depth (.of_eq hafter) (fun _ => rfl) ?_
  intro start hmem
  obtain hmem | hmem := List.mem_cons.1 hmem
  · cases hmem
  · exact hready.free start (List.mem_cons_of_mem _ hmem)

/-! ## Strings and keys -/

/-- A string is taken whole. A key may have started with it. -/
theorem takeToken_quote {ready : Lexer} {chars s more : List Char} (h : ready.IsFree)
    (hrest : ready.input.rest = '"' :: chars) (hchars : Json.SpellsChars chars s more) :
    ∃ key count, ready.takeToken '"' chars = some
        { ready.emit (.scalar (String.ofList s) false) (ready.input.skip (1 + count)) with
          key := key
          keyAllowed := false } ∧
      (ready.input.skip (1 + count)).rest = more ∧
      (∀ start, key = some start → start.required = false) ∧
      (ready.keyAllowed = true → key = some ⟨false, ready.tokens.length, ready.mark⟩) := by
  obtain ⟨key, hsave, hkey, hallowed⟩ := saveKey_ok h
  have hnext : ready.input.next.rest = chars := Input.rest_skip ['"'] hrest
  obtain ⟨taken, rfl, hquoted⟩ := readQuoted_of_spells hchars hnext
  have htoken : ready.takeToken '"' (taken ++ more) = ready.takeQuoted false := by
    simp [takeToken, startsMarker_of_ne]
  rw [Input.next, Input.skip_skip] at hquoted
  refine ⟨key, taken.length, ?_, ?_, hkey, hallowed⟩
  · rw [htoken, takeQuoted, hsave]
    change (readQuoted false (ready.input.skip 1)).bind _ = _
    rw [hquoted]
    rfl
  · rw [← Input.skip_skip]
    exact Input.rest_skip _ hnext

theorem IsAt.scalar {ready : Lexer} {s : String} {plain allowed : Bool} {key : Option KeyStart}
    {after : Input} {more : List Char} (h : ready.IsAt text found depth keys)
    (hmore : Leaves more after.rest)
    (hkey : ∀ start, key = some start → start.required = false) :
    IsAt { ready.emit (.scalar s plain) after with
      key := key
      keyAllowed := allowed } more (found ++ [.scalar s plain]) depth false := by
  refine h.more [⟨.scalar s plain, ready.mark, after.mark⟩] rfl (by simp) rfl rfl h.depth hmore
    (by simp) ?_
  intro start hmem
  obtain hmem | hmem := List.mem_cons.1 hmem
  · exact hkey start hmem.symm
  · exact h.free start (List.mem_cons_of_mem _ hmem)

theorem takes_string {chars s more : List Char} (h : lexer.IsAt text found (depth + 1) keys)
    (hstart : Json.afterBlanks text = '"' :: chars) (hchars : Json.SpellsChars chars s more) :
    ∃ next : Lexer, lexer.Reaches next ∧
      next.IsAt more (found ++ [.scalar (String.ofList s) false]) (depth + 1) false := by
  refine reaches_of_take h (.inl (inFlow_of_isAt h)) hstart ⟨rfl, rfl, by decide, by decide⟩
    fun ready hready hrest => ?_
  obtain ⟨key, count, htaken, hmore, hkey, -⟩ :=
    takeToken_quote hready.toIsFree hrest hchars
  refine ⟨_, htaken, hready.scalar (.of_eq hmore) hkey, ?_⟩
  change (ready.input.skip (1 + count)).rest.length < _
  rw [hmore, hrest]
  exact hchars.length_lt.trans (Nat.lt_succ_self _)

/-- A place of a key is kept up to a place of its line that is near enough. -/
theorem isStale_skip {input : Input} {n : Nat} {required : Bool} {count : Nat}
    (h : byteCount input.rest ≤ byteCount (input.skip n).rest + 1024) :
    isStale ⟨required, count, input.mark⟩ (input.skip n).mark = false := by
  have hindex := input.index_skip n
  have hline : (input.skip n).mark.line = input.mark.line := rfl
  unfold isStale
  simp only [hline, Bool.or_eq_false_iff, decide_eq_false_iff_not]
  omega

/-- In flow style a colon makes what was read since a key started its key. -/
theorem takeToken_colon {ready : Lexer} {token : Token} {tokens : List Token} {start : KeyStart}
    (after : List Char) (hflow : ready.inFlow = true) (hkey : ready.key = some start)
    (htokens : ready.tokens = token :: tokens) (hcount : start.tokenCount = tokens.length) :
    ∃ opening closing, ready.takeToken ':' after = some
        { ready with
          input := ready.input.skip 1
          tokens := ⟨.value, ready.mark, closing⟩ :: token :: ⟨.key, opening, opening⟩ :: tokens
          key := none
          keyAllowed := false } := by
  have htoken : ready.takeToken ':' after = ready.takeValue := by
    simp [takeToken, startsMarker_of_ne, hflow]
  have hopen : ready.openKey start =
      { ready with
        tokens := token :: ⟨.key, start.mark, start.mark⟩ :: tokens
        key := none } := by
    have hsince : (token :: tokens).length - tokens.length = 1 := by simp
    unfold openKey
    simp only [hflow, htokens, hcount, hsince, Bool.not_true, Bool.false_and]
    rfl
  refine ⟨start.mark, (ready.input.skip 1).mark, ?_⟩
  rw [htoken, takeValue, hkey]
  dsimp only
  rw [hopen]
  rfl

/-- The last token started at `start`, and it may become a key. -/
structure EndsKey (lexer : Lexer) (start : Input) (token : Token) (tokens : List Token) :
    Prop where
  key : lexer.key = some ⟨false, tokens.length, start.mark⟩
  tokens : lexer.tokens = token :: tokens
  passed : ∃ count, lexer.input = start.skip count

theorem takes_keyText {chars key more : List Char} (h : lexer.IsAt text found (depth + 1) true)
    (hstart : Json.afterBlanks text = '"' :: chars) (hchars : Json.SpellsChars chars key more)
    (hnear : byteCount ('"' :: chars) ≤ byteCount more + 1024) :
    ∃ (next : Lexer) (start : Input) (token : Token) (tokens : List Token),
      lexer.Reaches next ∧
      next.IsAt more (found ++ [.scalar (String.ofList key) false]) (depth + 1) false ∧
      next.EndsKey start token tokens ∧ next.input.rest = more ∧ start.rest = '"' :: chars ∧
      token.kind = .scalar (String.ofList key) false ∧
      tokens.reverse.map Token.kind = found := by
  obtain ⟨ready, hready, hrest, hstep⟩ :=
    step_eq h (.inl (inFlow_of_isAt h)) hstart ⟨rfl, rfl, by decide, by decide⟩
  obtain ⟨saved, count, htaken, hmore, -, hsaved⟩ :=
    takeToken_quote hready.toIsFree hrest hchars
  obtain rfl := hsaved (hready.allowed rfl)
  let kind : TokenKind := .scalar (String.ofList key) false
  have hat : IsAt { ready.emit kind (ready.input.skip (1 + count)) with
      key := some ⟨false, ready.tokens.length, ready.mark⟩
      keyAllowed := false } more (found ++ [kind]) (depth + 1) false :=
    hready.scalar (.of_eq hmore) fun start hkey => (Option.some.inj hkey) ▸ rfl
  obtain ⟨next, hdrop, hnext, hinput, htokens, hkept⟩ := dropStaleKeys_isAt hat
  have hkey : next.key = some ⟨false, ready.tokens.length, ready.mark⟩ := by
    refine hkept _ rfl (isStale_skip ?_)
    rw [hmore, hrest]
    exact hnear
  have hafter : next.input.rest = more := by rw [hinput]; exact hmore
  refine ⟨next, ready.input, _, ready.tokens, ?_, hnext, ⟨hkey, htokens, _, hinput⟩, hafter,
    hrest, rfl, hready.kinds⟩
  refine .of_step (by rw [hstep, htaken]; exact hdrop) (isDone_of_isAt hnext) ?_
  rw [hafter]
  exact (hchars.length_lt.trans (Nat.lt_succ_self _)).trans_le (h.length_le hstart)

theorem takes_colon {start : Input} {token : Token} {tokens : List Token} {gap after : List Char}
    (h : lexer.IsAt text found (depth + 1) keys) (hkey : lexer.EndsKey start token tokens)
    (hrest : lexer.input.rest = gap ++ ':' :: after) (hgap : ∀ c ∈ gap, isBlank c = true)
    (hnear : byteCount start.rest ≤ byteCount (':' :: after) + 1024) :
    ∃ next : Lexer, lexer.Reaches next ∧
      next.IsAt after (tokens.reverse.map Token.kind ++ [.key, token.kind, .value]) (depth + 1)
        false := by
  have hskip := skipToToken_line lexer.input.rest.length (inFlow_of_isAt h) hrest hgap
    ⟨rfl, rfl, by decide, by decide⟩
  have hcolon : (lexer.input.skip gap.length).rest = ':' :: after := Input.rest_skip _ hrest
  have hpassed : IsAt { lexer with input := lexer.input.skip gap.length } (':' :: after) found
      (depth + 1) keys :=
    ⟨⟨h.indent, h.outer, h.free⟩, .of_eq hcolon, h.kinds, h.depth, h.unended,
      h.allowed⟩
  obtain ⟨kept, hdrop, hkept, hinput, htokens, hstays⟩ := dropStaleKeys_isAt hpassed
  -- the start of the key is near enough, so that it is not stale at the colon
  have hstart : kept.key = some ⟨false, tokens.length, start.mark⟩ := by
    refine hstays _ hkey.key ?_
    obtain ⟨count, hcount⟩ := hkey.passed
    change isStale _ (lexer.input.skip gap.length).mark = false
    rw [hcount, Input.skip_skip] at hcolon ⊢
    refine isStale_skip ?_
    rw [hcolon]
    exact hnear
  have hkeptRest : kept.input.rest = ':' :: after := by rw [hinput]; exact hcolon
  obtain ⟨opening, closing, hvalue⟩ := takeToken_colon after (inFlow_of_isAt hkept)
    hstart (htokens.trans hkey.tokens) rfl
  have hafter : (kept.input.skip 1).rest = after := Input.rest_skip [':'] hkeptRest
  have hunended : TokenKind.streamEnd ∉ tokens.reverse.map Token.kind ++ [token.kind] := by
    have hkinds : lexer.kinds = tokens.reverse.map Token.kind ++ [token.kind] := by
      simp [Lexer.kinds, hkey.tokens]
    rw [← hkinds, h.kinds]
    exact h.unended
  have hlast : IsAt { kept with
      input := kept.input.skip 1
      tokens := ⟨.value, kept.mark, closing⟩ :: token :: ⟨.key, opening, opening⟩ :: tokens
      key := none
      keyAllowed := false } after (tokens.reverse.map Token.kind ++ [.key, token.kind, .value])
      (depth + 1) false := by
    refine ⟨⟨hkept.indent, hkept.outer, ?_⟩, .of_eq hafter, ?_, hkept.depth, ?_,
      by simp⟩
    · intro start hmem
      obtain hmem | hmem := List.mem_cons.1 hmem
      · cases hmem
      · exact hkept.free start (List.mem_cons_of_mem _ hmem)
    · simp [Lexer.kinds]
    · simpa using hunended
  obtain ⟨next, hnextDrop, hnext, hnextInput, -⟩ := dropStaleKeys_isAt hlast
  refine ⟨next, .of_step ?_ (isDone_of_isAt hnext) ?_, hnext⟩
  · rw [step_of_skip hskip hdrop hkept.outer hkeptRest, hvalue]
    exact hnextDrop
  · rw [hnextInput, hrest]
    change (kept.input.skip 1).rest.length < _
    rw [hafter, List.length_append, List.length_cons]
    omega

theorem takes_key {chars key gap after : List Char} (h : lexer.IsAt text found (depth + 1) true)
    (hstart : Json.afterBlanks text = '"' :: chars)
    (hchars : Json.SpellsChars chars key (gap ++ ':' :: after))
    (hgap : ∀ c ∈ gap, isBlank c = true) (hnear : byteCount chars ≤ byteCount after + 1024) :
    ∃ next : Lexer, lexer.Reaches next ∧
      next.IsAt after (found ++ [.key, .scalar (String.ofList key) false, .value]) (depth + 1)
        false := by
  have hbytes : byteCount ('"' :: chars) ≤ byteCount (':' :: after) + 1024 := by
    have hone : ('"' : Char).utf8Size = 1 ∧ (':' : Char).utf8Size = 1 := by decide
    rw [byteCount_cons, byteCount_cons]
    omega
  obtain ⟨between, start, token, tokens, hreach, hbetween, hkey, hrest, hopen, hkind, hfound⟩ :=
    takes_keyText h hstart hchars (by rw [byteCount_append]; omega)
  obtain ⟨next, hlast, hnext⟩ := takes_colon hbetween hkey hrest hgap (by rw [hopen]; exact hbytes)
  rw [hkind, hfound] at hnext
  exact ⟨next, hreach.trans hlast, hnext⟩

/-! ## Words -/

theorem isWordChar_of_literalChar {c : Char} (h : Numeral.IsLiteralChar c) : IsWordChar c := by
  obtain hc | rfl | rfl | rfl | rfl | rfl := h
  · have hne {d : Char} (hd : Numeral.isDigit d = false) : c ≠ d := Numeral.ne_of_isDigit hc hd
    refine ⟨⟨?_, ?_⟩, hne (by decide), ?_⟩
    · simp [isBlank, hne (d := ' ') (by decide), hne (d := '\t') (by decide)]
    · simp [isBreak, hne (d := '\n') (by decide), hne (d := '\r') (by decide),
        hne (d := '\x85') (by decide), hne (d := '\u2028') (by decide),
        hne (d := '\u2029') (by decide)]
    · simp [isFlowMark, hne (d := ',') (by decide), hne (d := '[') (by decide),
        hne (d := ']') (by decide), hne (d := '\x7b') (by decide), hne (d := '\x7d') (by decide)]
  all_goals exact ⟨by decide, by decide⟩

/-- A character that does not start any other token starts a plain scalar. -/
theorem takeToken_plain {ready : Lexer}
    (hc : isIndicator c = false ∧ c ≠ '.' ∧ isBlank c = false ∧ isBreak c = false)
    (rest : List Char) : ready.takeToken c rest = ready.takePlain := by
  have hne {d : Char} (hd : isIndicator d = true) : c ≠ d := by
    rintro rfl
    rw [hc.1] at hd
    cases hd
  have hstarts : startsPlain ready.inFlow c rest = true := by
    simp [startsPlain, hc]
  have hpercent : (c == '%') = false := beq_eq_false_iff_ne.2 (hne rfl)
  unfold takeToken
  simp only [hpercent, startsMarker_of_ne (hne (d := '-') rfl), startsMarker_of_ne hc.2.1,
    Bool.and_false, Bool.false_eq_true, if_false, hne (d := '[') rfl, hne (d := '\x7b') rfl,
    hne (d := ']') rfl, hne (d := '\x7d') rfl, hne (d := ',') rfl, hne (d := '-') rfl,
    hne (d := '?') rfl, hne (d := ':') rfl, hne (d := '*') rfl, hne (d := '&') rfl,
    hne (d := '!') rfl, hne (d := '|') rfl, hne (d := '>') rfl, hne (d := '\'') rfl,
    hne (d := '"') rfl, false_and, hstarts, if_true]

theorem startsMarker_minus {d : Char} (hd : Numeral.isDigit d = true) (rest : List Char) :
    startsMarker '-' ('-' :: d :: rest) = false := by
  have hminus : d ≠ '-' := Numeral.ne_of_isDigit hd (by decide)
  unfold startsMarker
  split
  · rename_i heq
    obtain ⟨-, heq⟩ := List.cons.inj heq
    obtain ⟨rfl, -⟩ := List.cons.inj heq
    simp [hminus]
  · rfl

theorem takeToken_minus {ready : Lexer} {d : Char} (hd : Numeral.isDigit d = true)
    (rest : List Char) : ready.takeToken '-' (d :: rest) = ready.takePlain := by
  obtain ⟨hblank, hbreak⟩ := (isWordChar_of_literalChar (.inl hd)).noGap
  have hgap : atGap (d :: rest) = false := by simp [atGap, hblank, hbreak]
  simp [takeToken, startsMarker_minus hd, startsMarker_of_ne, hgap, startsPlain, hblank]

theorem not_indicator_of_isDigit (hc : Numeral.isDigit c = true) : isIndicator c = false := by
  rw [Bool.eq_false_iff, isIndicator, Ne, List.contains_iff_mem]
  intro hmem
  have hnone : ∀ d ∈ "-?:,[]\x7b\x7d#&*!|>'\"%@`".toList, Numeral.isDigit d = false :=
    List.all_iff_forall_prop.1 (by decide)
  rw [hnone c hmem] at hc
  cases hc

theorem takeToken_word {word : List Char} {v : Value} (more : List Char)
    (hword : Json.SpellsWord word v) :
    ∃ c rest, word = c :: rest ∧ IsTokenStart c ∧ ∀ ready : Lexer,
      ready.input.rest = word ++ more → ready.input.atMarker = false ∧
        ready.takeToken c (rest ++ more) = ready.takePlain := by
  obtain ⟨c, rest, rfl, hc⟩ := hword.cons
  refine ⟨c, rest, rfl, ?_⟩
  obtain hc | ⟨rfl, d, after, rfl, hd⟩ := hc
  · have hplain : isIndicator c = false ∧ c ≠ '.' ∧ c ≠ '-' ∧ c ≠ '#' ∧ c ≠ '\ufeff' ∧
        isBlank c = false ∧ isBreak c = false := by
      obtain rfl | rfl | rfl | hc := hc
      all_goals try decide
      obtain ⟨hblank, hbreak⟩ := (isWordChar_of_literalChar (.inl hc)).noGap
      exact ⟨not_indicator_of_isDigit hc, Numeral.ne_of_isDigit hc (by decide),
        Numeral.ne_of_isDigit hc (by decide), Numeral.ne_of_isDigit hc (by decide),
        Numeral.ne_of_isDigit hc (by decide), hblank, hbreak⟩
    obtain ⟨hindicator, hdot, hminus, hcomment, horder, hblank, hbreak⟩ := hplain
    refine ⟨⟨hblank, hbreak, hcomment, horder⟩, fun ready hrest => ⟨?_, ?_⟩⟩
    · exact Input.atMarker_of_ne hrest ⟨hminus, hdot⟩
    · exact takeToken_plain ⟨hindicator, hdot, hblank, hbreak⟩ _
  · refine ⟨⟨rfl, rfl, by decide, by decide⟩, fun ready hrest => ⟨?_, takeToken_minus hd _⟩⟩
    unfold Input.atMarker
    rw [hrest]
    change (_ && (startsMarker '-' ('-' :: d :: (after ++ more)) ||
      startsMarker '.' ('-' :: d :: (after ++ more)))) = false
    rw [startsMarker_minus hd, startsMarker_of_ne (by decide)]
    exact Bool.and_false _

theorem takes_word {word more : List Char} {v : Value} (h : lexer.IsAt text found (depth + 1) keys)
    (hstart : Json.afterBlanks text = word ++ more) (hmore : Json.EndsPart more)
    (hword : Json.SpellsWord word v) :
    ∃ next : Lexer, lexer.Reaches next ∧
      next.IsAt more (found ++ [.scalar (String.ofList word) true]) (depth + 1) false := by
  have hchars : ∀ c ∈ word, IsWordChar c := by
    intro c hc
    obtain hc | hc := chars_of_word hword c hc
    · exact (List.all_iff_forall_prop.1 (by decide) : ∀ c ∈ "nultrefas".toList, IsWordChar c) c hc
    · exact isWordChar_of_literalChar hc
  obtain ⟨c, rest, rfl, hc, hready⟩ := takeToken_word more hword
  refine reaches_of_take h (.inl (inFlow_of_isAt h)) hstart hc fun ready hat hrest => ?_
  obtain ⟨hmarker, htoken⟩ := hready ready hrest
  obtain ⟨key, hsave, hkey, -⟩ := saveKey_ok hat.toIsFree
  obtain ⟨broke, after, hplain, hafter⟩ :=
    readPlain_of_word hchars hmore hrest ⟨c, rest, rfl, hc.2.2.1⟩ hmarker
  have hmargin : (ready.indent + 1).toNat = 0 := by rw [hat.indent]; rfl
  have htaken : ready.takeToken c (rest ++ more) = some
      { ready.emit (.scalar (String.ofList (c :: rest)) true) after with
        key := key
        keyAllowed := broke } := by
    rw [htoken, takePlain, hsave]
    change (readPlain ready.inFlow (ready.indent + 1).toNat ready.input).bind _ = _
    rw [inFlow_of_isAt hat, hmargin, hplain]
    rfl
  refine ⟨_, htaken, hat.scalar (.of_afterBlanks hafter.symm) hkey, ?_⟩
  change after.rest.length < _
  have hspelled : ready.input.rest = (c :: rest) ++ more := hrest
  have hlength := Json.length_afterBlanks_le more
  rw [hafter, hspelled, List.length_append, List.length_cons]
  omega

end

end Lexer

end PayloadMapping.Yaml
