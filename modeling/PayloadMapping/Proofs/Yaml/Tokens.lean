import Mathlib.Data.List.TakeWhile
import PayloadMapping.Proofs.Yaml.Flow

set_option autoImplicit false

/-!
# Tokens of shared texts

The lexer takes a text that JSON and YAML share to tokens that depend on the value it stands for
and on the spelling of its words.
-/

namespace PayloadMapping.Yaml

open Json (Piece Spells SpellsWord)

def comma (first : Bool) : List TokenKind := if first then [] else [.flowEntry]

inductive TokensOf : Nat → Piece → List TokenKind → Prop where
  | word {room : Nat} {word : List Char} {v : Value} (means : SpellsWord word v) :
      TokensOf room (.value v) [.scalar (String.ofList word) true]
  | string {room : Nat} {s : String} : TokensOf room (.value (.string s)) [.scalar s false]
  | list {room : Nat} {vs : List Value} {kinds : List TokenKind}
      (items : TokensOf room (.items true vs) kinds) :
      TokensOf (room + 1) (.value (.array vs)) (.flowSequenceStart :: kinds)
  | object {room : Nat} {fields : Fields Value} {kinds : List TokenKind}
      (entries : TokensOf room (.entries true fields) kinds) :
      TokensOf (room + 1) (.value (.object (Fields.merge [] fields))) (.flowMappingStart :: kinds)
  | noItem {room : Nat} {first : Bool} : TokensOf room (.items first []) [.flowSequenceEnd]
  | item {room : Nat} {first : Bool} {v : Value} {vs : List Value}
      {kinds others : List TokenKind} (value : TokensOf room (.value v) kinds)
      (rest : TokensOf room (.items false vs) others) :
      TokensOf room (.items first (v :: vs)) (comma first ++ (kinds ++ others))
  | noEntry {room : Nat} {first : Bool} : TokensOf room (.entries first []) [.flowMappingEnd]
  | entry {room : Nat} {first : Bool} {key : String} {v : Value} {fields : Fields Value}
      {kinds others : List TokenKind} (value : TokensOf room (.value v) kinds)
      (rest : TokensOf room (.entries false fields) others) :
      TokensOf room (.entries first ((key, v) :: fields))
        (comma first ++ (.key :: .scalar key false :: .value :: (kinds ++ others)))

namespace Lexer

/-- The lexer gets over a piece, and takes tokens of these kinds on its way. -/
def GetsOver (text more : List Char) (kinds : List TokenKind) : Piece → Prop
  | .value _ => ∀ {lexer : Lexer} {found : List TokenKind} {depth : Nat} {keys : Bool},
      lexer.IsAt text found (depth + 1) keys → ∃ next : Lexer, lexer.Reaches next ∧
        next.IsAt more (found ++ kinds) (depth + 1) false
  | .items _ _ => ∀ {lexer : Lexer} {found : List TokenKind} {depth : Nat} {keys : Bool},
      lexer.IsAt text found (depth + 1) keys → ∃ next : Lexer, lexer.Reaches next ∧
        next.IsAt more (found ++ kinds) depth false
  | .entries first _ => ∀ {lexer : Lexer} {found : List TokenKind} {depth : Nat} {keys : Bool},
      lexer.IsAt text found (depth + 1) keys → (first = true → keys = true) →
        ∃ next : Lexer, lexer.Reaches next ∧ next.IsAt more (found ++ kinds) depth false

theorem Reaches.refl (lexer : Lexer) : lexer.Reaches lexer :=
  ⟨0, (Nat.zero_add _).le, fun _ => rfl⟩

theorem getsOver_comma {first : Bool} {text next : List Char}
    (hcomma : Json.PassesComma first text next) {lexer : Lexer} {found : List TokenKind}
    {depth : Nat} {keys : Bool} (h : lexer.IsAt text found (depth + 1) keys) :
    ∃ passed : Lexer, lexer.Reaches passed ∧
      passed.IsAt next (found ++ comma first) (depth + 1) (keys || !first) := by
  cases first with
  | true =>
    obtain rfl : next = text := hcomma
    refine ⟨lexer, .refl lexer, ?_⟩
    rwa [comma, if_pos rfl, List.append_nil, Bool.not_true, Bool.or_false]
  | false =>
    obtain ⟨passed, hreach, hpassed⟩ := takes_comma h hcomma
    exact ⟨passed, hreach, by rwa [Bool.not_false, Bool.or_true]⟩

theorem getsOver_of_spells {room : Nat} {piece : Piece} {text more : List Char}
    (h : Spells room piece text more) :
    ∃ kinds, TokensOf room piece kinds ∧ GetsOver text more kinds piece := by
  induction h with
  | word _ start ends means => exact ⟨_, .word means, fun h => takes_word h start ends means⟩
  | string start means => exact ⟨_, .string, fun h => takes_string h start means⟩
  | list start items ih =>
    obtain ⟨kinds, htokens, hitems⟩ := ih
    refine ⟨_, .list htokens, fun h => ?_⟩
    obtain ⟨opened, hopen, hopened⟩ :=
      takes_open h (.inl (inFlow_of_isAt h)) start (.inl ⟨rfl, rfl⟩)
    obtain ⟨next, hreach, hnext⟩ := hitems hopened
    refine ⟨next, hopen.trans hreach, ?_⟩
    rwa [List.append_assoc] at hnext
  | object start entries ih =>
    obtain ⟨kinds, htokens, hentries⟩ := ih
    refine ⟨_, .object htokens, fun h => ?_⟩
    obtain ⟨opened, hopen, hopened⟩ :=
      takes_open h (.inl (inFlow_of_isAt h)) start (.inr ⟨rfl, rfl⟩)
    obtain ⟨next, hreach, hnext⟩ := hentries hopened (fun _ => rfl)
    refine ⟨next, hopen.trans hreach, ?_⟩
    rwa [List.append_assoc] at hnext
  | noItem close => exact ⟨_, .noItem, fun h => takes_close h close (.inl ⟨rfl, rfl⟩)⟩
  | @item room first text next rest more v vs hcomma value others ihv iho =>
    obtain ⟨kinds, hvalue, hover⟩ := ihv
    obtain ⟨more, hothers, hovers⟩ := iho
    refine ⟨_, .item hvalue hothers, fun h => ?_⟩
    obtain ⟨passed, hpass, hpassed⟩ := getsOver_comma hcomma h
    obtain ⟨between, hreach, hbetween⟩ := hover hpassed
    obtain ⟨last, hrest, hlast⟩ := hovers hbetween
    refine ⟨last, hpass.trans (hreach.trans hrest), ?_⟩
    rwa [List.append_assoc, List.append_assoc] at hlast
  | noEntry close => exact ⟨_, .noEntry, fun h _ => takes_close h close (.inr ⟨rfl, rfl⟩)⟩
  | @entry room first text next chars key after rest more v fields gap hcomma quote means line near
      value others ihv iho =>
    obtain ⟨kinds, hvalue, hover⟩ := ihv
    obtain ⟨more, hothers, hovers⟩ := iho
    refine ⟨_, .entry hvalue hothers, fun {lexer found depth keys} h hfirst => ?_⟩
    obtain ⟨passed, hpass, hpassed⟩ := getsOver_comma hcomma h
    have hkeys : (keys || !first) = true := by
      cases first with
      | true => rw [hfirst rfl, Bool.true_or]
      | false => exact Bool.or_true _
    rw [hkeys] at hpassed
    obtain ⟨keyed, hkey, hkeyed⟩ := takes_key hpassed quote means line near
    obtain ⟨between, hreach, hbetween⟩ := hover hkeyed
    obtain ⟨last, hrest, hlast⟩ := hovers hbetween (by simp)
    refine ⟨last, hpass.trans (hkey.trans (hreach.trans hrest)), ?_⟩
    simpa only [List.append_assoc, List.cons_append, List.nil_append] using hlast

theorem finish_ok {lexer : Lexer} (h : lexer.IsFree) :
    ∃ next token, lexer.finish = some next ∧ next.IsFree ∧ next.tokens = token :: lexer.tokens ∧
      token.kind = .streamEnd := by
  let lastMark := if lexer.mark.column = 0 then lexer.mark
    else ⟨lexer.mark.index, lexer.mark.line + 1, 0⟩
  have hended : IsFree { lexer with input := ⟨[], lastMark⟩ } := ⟨h.indent, h.outer, h.free⟩
  refine ⟨emitEmpty { lexer with input := ⟨[], lastMark⟩, key := none } .streamEnd,
    ⟨.streamEnd, lastMark, lastMark⟩, ?_, ⟨h.indent, h.outer, ?_⟩, rfl, rfl⟩
  · change (dropKey (unroll { lexer with input := ⟨[], lastMark⟩ } (-1))).bind _ = _
    rw [unroll_eq hended.outer, dropKey_ok hended]
    rfl
  · intro start hmem
    obtain hmem | hmem := List.mem_cons.1 hmem
    · cases hmem
    · exact h.free start (List.mem_cons_of_mem _ hmem)

theorem step_of_end {lexer passed kept : Lexer}
    (hskip : skipToToken (lexer.input.rest.length + 1) lexer = passed)
    (hdrop : passed.dropStaleKeys = some kept) (houter : kept.outer = [])
    (hrest : kept.input.rest = []) : lexer.step = kept.finish.bind dropStaleKeys := by
  unfold step
  rw [hskip, hdrop]
  simp only [Option.bind_eq_bind, Option.bind_some, unroll_eq houter, hrest]

theorem step_ends {lexer : Lexer} (h : lexer.IsFree) (hpass : lexer.MayPass)
    (hempty : Json.afterBlanks lexer.input.rest = []) :
    ∃ next token, lexer.step = some next ∧ next.tokens = token :: lexer.tokens ∧
      token.kind = .streamEnd := by
  obtain ⟨mark, allowed, hskip, -⟩ := skipToToken_ok (Nat.lt_succ_self _) hpass (by
    intro c tail hc
    rw [hempty] at hc
    cases hc)
  rw [hempty] at hskip
  have hpassed : IsFree { lexer with input := ⟨[], mark⟩, keyAllowed := allowed } :=
    ⟨h.indent, h.outer, h.free⟩
  obtain ⟨key, outerKeys, hdrop, -, hkeys, -⟩ := dropStaleKeys_ok hpassed
  have hkept : IsFree { lexer with
      input := ⟨[], mark⟩
      keyAllowed := allowed
      key := key
      outerKeys := outerKeys } := ⟨h.indent, h.outer, hkeys⟩
  obtain ⟨ended, token, hfinish, hended, htokens, hkind⟩ := finish_ok hkept
  obtain ⟨lastKey, lastKeys, hlast, -⟩ := dropStaleKeys_ok hended
  refine ⟨{ ended with key := lastKey, outerKeys := lastKeys }, token, ?_, htokens, hkind⟩
  rw [step_of_end hskip hdrop h.outer rfl, hfinish]
  exact hlast

theorem run_ends {lexer : Lexer} {text : List Char} {found : List TokenKind} {keys : Bool}
    (h : lexer.IsAt text found 0 keys) (hblanks : ∀ c ∈ text, Json.Cursor.isSpace c = true)
    (htabs : '\t' ∉ text) (steps : Nat) :
    (run (steps + 1) lexer).map Token.kind = found ++ [.streamEnd] := by
  obtain ⟨blanks, rfl, -⟩ := h.text
  have hempty : Json.afterBlanks lexer.input.rest = [] :=
    List.dropWhile_eq_nil_iff.2 fun c hc => hblanks c (List.mem_append_right _ hc)
  have hpass : lexer.MayPass := .inr fun hmem =>
    htabs (List.mem_append_right _ ((List.takeWhile_subset _) hmem))
  obtain ⟨next, token, hstep, htokens, hkind⟩ := step_ends h.toIsFree hpass hempty
  have hdone : next.isDone = true := by simp [isDone, htokens, hkind]
  have hkinds := h.kinds
  rw [Lexer.kinds] at hkinds
  rw [run, hstep]
  simp [hdone, htokens, hkind, ← hkinds]

end Lexer

/-- The tokens of an object with nothing but blanks around it. -/
theorem scan_of_spells {room : Nat} {before body after : List Char} {fields : Fields Value}
    (hallowed : (before ++ '\x7b' :: body).all isAllowed = true)
    (hblanks : ∀ c ∈ before ++ after, Json.Cursor.isSpace c = true ∧ c ≠ '\t')
    (h : Spells room (.entries true fields) body after) :
    ∃ kinds, TokensOf room (.entries true fields) kinds ∧
      (Token.scan (before ++ '\x7b' :: body)).map Token.kind =
        .flowMappingStart :: (kinds ++ [.streamEnd]) := by
  obtain ⟨hbefore, hafter⟩ := List.forall_mem_append.1 hblanks
  obtain ⟨kinds, htokens, hover⟩ := Lexer.getsOver_of_spells h
  refine ⟨kinds, htokens, ?_⟩
  let lexer : Lexer := { input := Input.start (before ++ '\x7b' :: body) }
  have hspaces : ∀ c ∈ before, Json.Cursor.isSpace c = true := fun c hc => (hbefore c hc).1
  have hat : lexer.IsAt (before ++ '\x7b' :: body) [] 0 true :=
    ⟨⟨rfl, rfl, by simp [lexer]⟩, .of_eq rfl, rfl, rfl, List.not_mem_nil, fun _ => rfl⟩
  have hpass : lexer.MayPass := by
    right
    change '\t' ∉ (before ++ '\x7b' :: body).takeWhile Json.Cursor.isSpace
    rw [List.takeWhile_append_of_pos hspaces, List.takeWhile_cons_of_neg (by decide),
      List.append_nil]
    exact fun hmem => (hbefore _ hmem).2 rfl
  have hstart : Json.afterBlanks (before ++ '\x7b' :: body) = '\x7b' :: body := by
    rw [afterBlanks_append hspaces, Json.afterBlanks_cons (by decide)]
  obtain ⟨opened, hopen, hopened⟩ := Lexer.takes_open hat hpass hstart (.inr ⟨rfl, rfl⟩)
  obtain ⟨last, hclose, hlast⟩ := hover hopened (fun _ => rfl)
  obtain ⟨count, hcount, hrun⟩ := hopen.trans hclose
  have hlength : count ≤ (before ++ '\x7b' :: body).length := le_trans (Nat.le_add_right _ _) hcount
  have hsteps : (before ++ '\x7b' :: body).length + 1 =
      (before ++ '\x7b' :: body).length - count + 1 + count := by omega
  rw [Token.scan, if_pos hallowed, hsteps, hrun,
    Lexer.run_ends hlast (fun c hc => (hafter c hc).1) fun hmem => (hafter _ hmem).2 rfl]
  rfl

end PayloadMapping.Yaml
