import PayloadMapping.Json.Reader
import PayloadMapping.Value.Fields
import PayloadMapping.Yaml.Mark
import PayloadMapping.Proofs.Json.Literal

set_option autoImplicit false

/-!
# JSON that is YAML

Not every JSON text is a YAML text with the same meaning. Here are those that are: their grammar
says for every text which value it stands for. It leaves out what the two formats read in
different ways. Characters outside of the printable ones, line separators among them, have to be
escaped, and not as the halves of surrogate pairs. A key and its colon have to be on one line and
close to each other. A whole number needs 64 bits at most, and a fraction has to be read as the
double that is nearest to it. The JSON reader reads all of these texts as the grammar says.
-/

namespace PayloadMapping.Json

def afterBlanks (cs : List Char) : List Char := cs.dropWhile Cursor.isSpace

theorem rest_skipSpace (cursor : Cursor) : cursor.skipSpace.rest = afterBlanks cursor.rest := by
  have hskip : ∀ (cs : List Char) (place : Place),
      (Cursor.skipFrom place cs).rest = afterBlanks cs := by
    intro cs
    induction cs with
    | nil => exact fun _ => rfl
    | cons c rest ih =>
      intro place
      rw [Cursor.skipFrom, afterBlanks, List.dropWhile_cons]
      split
      · exact ih _
      · rfl
  exact hskip cursor.rest cursor.place

theorem length_afterBlanks_le (cs : List Char) : (afterBlanks cs).length ≤ cs.length :=
  (List.dropWhile_sublist _).length_le

theorem afterBlanks_idem (cs : List Char) : afterBlanks (afterBlanks cs) = afterBlanks cs := by
  induction cs with
  | nil => rfl
  | cons c rest ih =>
    unfold afterBlanks at ih ⊢
    cases hc : Cursor.isSpace c <;> simp [hc, ih]

theorem afterBlanks_cons {c : Char} (hc : Cursor.isSpace c = false) (rest : List Char) :
    afterBlanks (c :: rest) = c :: rest := by
  rw [afterBlanks, List.dropWhile_cons_of_neg (by simp [hc])]

/-! ## Strings -/

structure IsPlainChar (c : Char) : Prop where
  unquoted : c ≠ '"' ∧ c ≠ '\\'
  noControl : 0x20 ≤ c.toNat
  unbroken : Yaml.isBreak c = false

instance (c : Char) : Decidable (IsPlainChar c) :=
  decidable_of_iff ((c ≠ '"' ∧ c ≠ '\\') ∧ 0x20 ≤ c.toNat ∧ Yaml.isBreak c = false)
    ⟨fun ⟨a, b, d⟩ => ⟨a, b, d⟩, fun ⟨a, b, d⟩ => ⟨a, b, d⟩⟩

/-- The text from after a backslash on spells a character, and another text follows. -/
inductive SpellsEscape : List Char → Char → List Char → Prop where
  | letter {c d : Char} {more : List Char} (means : shortEscape? c = some d) :
      SpellsEscape (c :: more) d more
  | code {c₁ c₂ c₃ c₄ : Char} {code : Nat} {more : List Char}
      (means : Numeral.natural? 16 [c₁, c₂, c₃, c₄] = some code)
      (whole : ¬(0xD800 ≤ code ∧ code ≤ 0xDFFF)) :
      SpellsEscape ('u' :: c₁ :: c₂ :: c₃ :: c₄ :: more) (Char.ofNat code) more

inductive SpellsChars : List Char → List Char → List Char → Prop where
  | quote {more : List Char} : SpellsChars ('"' :: more) [] more
  | plain {c : Char} {text s more : List Char} (plain : IsPlainChar c)
      (others : SpellsChars text s more) : SpellsChars (c :: text) (c :: s) more
  | escape {after text s more : List Char} {d : Char} (escape : SpellsEscape after d text)
      (others : SpellsChars text s more) : SpellsChars ('\\' :: after) (d :: s) more

theorem SpellsEscape.suffix {after more : List Char} {d : Char} (h : SpellsEscape after d more) :
    ∃ c taken, after = c :: taken ++ more := by
  cases h with
  | letter => exact ⟨_, [], rfl⟩
  | code => exact ⟨'u', [_, _, _, _], rfl⟩

theorem SpellsChars.suffix {text s more : List Char} (h : SpellsChars text s more) :
    ∃ c taken, text = c :: taken ++ more := by
  induction h with
  | quote => exact ⟨'"', [], rfl⟩
  | @plain c _ _ _ _ _ ih =>
    obtain ⟨d, taken, rfl⟩ := ih
    exact ⟨c, d :: taken, rfl⟩
  | escape hescape _ ih =>
    obtain ⟨d, taken, rfl⟩ := ih
    obtain ⟨c, before, rfl⟩ := hescape.suffix
    exact ⟨'\\', c :: before ++ d :: taken, by simp⟩

theorem length_lt_of_suffix {text more : List Char} (h : ∃ c taken, text = c :: taken ++ more) :
    more.length < text.length := by
  obtain ⟨c, taken, rfl⟩ := h
  simp only [List.length_append, List.length_cons]
  omega

theorem SpellsEscape.length_lt {after more : List Char} {d : Char} (h : SpellsEscape after d more) :
    more.length < after.length :=
  length_lt_of_suffix h.suffix

theorem SpellsChars.length_lt {text s more : List Char} (h : SpellsChars text s more) :
    more.length < text.length :=
  length_lt_of_suffix h.suffix

theorem SpellsChars.of_plain {s more : List Char}
    (h : (s.all fun c => decide (IsPlainChar c)) = true) :
    SpellsChars (s ++ '"' :: more) s more := by
  induction s with
  | nil => exact .quote
  | cons c rest ih =>
    rw [List.all_cons, Bool.and_eq_true] at h
    exact .plain (of_decide_eq_true h.1) (ih h.2)

theorem readEscape_of_spells {after more : List Char} {d : Char} (h : SpellsEscape after d more)
    (place : Place) : ∃ last, readEscape ⟨after, place⟩ = .ok (d, ⟨more, last⟩) := by
  cases h with
  | @letter c _ _ means =>
    have hu : c ≠ 'u' := by
      rintro rfl
      cases means
    refine ⟨place.pass c c.utf8Size, ?_⟩
    simp only [readEscape, if_neg hu, means, Cursor.next]
  | @code c₁ c₂ c₃ c₄ code _ means whole =>
    have hlow : ¬(0xDC00 ≤ code ∧ code ≤ 0xDFFF) := by omega
    have hhigh : ¬(0xD800 ≤ code ∧ code ≤ 0xDBFF) := by omega
    refine ⟨⟨(place.pass 'u' 1).line, (place.pass 'u' 1).column + 4⟩, ?_⟩
    rw [readEscape]
    dsimp only
    rw [if_pos rfl, readUnicode, readHex, Cursor.next]
    dsimp only
    rw [means]
    change (if _ then _ else _) = _
    rw [if_neg hlow, if_neg hhigh]
    rfl

theorem readChars_of_spells {text s more : List Char} (h : SpellsChars text s more) :
    ∀ (read : List Char) {steps : Nat} (place : Place), text.length < steps →
      ∃ last, readChars read ⟨text, place⟩ steps =
        .ok (String.ofList (read.reverse ++ s), ⟨more, last⟩) := by
  induction h with
  | quote =>
    intro read steps place hsteps
    obtain ⟨steps, rfl⟩ := Nat.exists_eq_add_one_of_ne_zero (Nat.ne_zero_of_lt hsteps)
    refine ⟨place.pass '"' ('"' : Char).utf8Size, ?_⟩
    rw [readChars, List.append_nil]
    rfl
  | @plain c text s more hplain others ih =>
    intro read steps place hsteps
    obtain ⟨steps, rfl⟩ := Nat.exists_eq_add_one_of_ne_zero (Nat.ne_zero_of_lt hsteps)
    obtain ⟨last, hread⟩ := ih (c :: read) (place.pass c c.utf8Size)
      (Nat.lt_of_succ_lt_succ hsteps)
    rw [List.reverse_cons, List.append_assoc] at hread
    refine ⟨last, ?_⟩
    rw [readChars]
    dsimp only
    rw [if_neg hplain.unquoted.1, if_neg hplain.unquoted.2,
      if_neg (Nat.not_lt.2 hplain.noControl)]
    exact hread
  | @escape after text s more d hescape others ih =>
    intro read steps place hsteps
    obtain ⟨steps, rfl⟩ := Nat.exists_eq_add_one_of_ne_zero (Nat.ne_zero_of_lt hsteps)
    obtain ⟨reached, hfound⟩ := readEscape_of_spells hescape (place.pass '\\' 1)
    obtain ⟨last, hread⟩ := ih (d :: read) reached
      (hescape.length_lt.trans (Nat.lt_of_succ_lt_succ hsteps))
    rw [List.reverse_cons, List.append_assoc] at hread
    refine ⟨last, ?_⟩
    rw [readChars]
    dsimp only
    rw [if_neg (by decide), if_pos rfl, Cursor.next]
    change (readEscape ⟨after, place.pass '\\' 1⟩ >>= _) = _
    rw [hfound]
    exact hread

theorem readString_of_spells {text s more : List Char} (h : SpellsChars text s more)
    (place : Place) :
    ∃ last, readString ⟨text, place⟩ = .ok (String.ofList s, ⟨more, last⟩) :=
  readChars_of_spells h [] place (Nat.lt_succ_self _)

/-! ## Values -/

def EndsPart (more : List Char) : Prop :=
  ∃ c tail, afterBlanks more = c :: tail ∧ (c = ',' ∨ c = ']' ∨ c = '\x7d')

inductive IsLiteral : List Char → Number → Prop where
  | unsigned {literal : List Char} {place last : Place} {n : Number}
      (reads : readUnsigned false ⟨literal, place⟩ = .ok (n, ⟨[], last⟩)) : IsLiteral literal n
  | negative {literal : List Char} {place last : Place} {n : Number}
      (reads : readUnsigned true ⟨literal, place⟩ = .ok (n, ⟨[], last⟩)) :
      IsLiteral ('-' :: literal) n

/-- A word with the value that it stands for. A double is spelled with a point or an exponent, and
it is the nearest to what is spelled. -/
inductive SpellsWord : List Char → Value → Prop where
  | null : SpellsWord ['n', 'u', 'l', 'l'] .null
  | isTrue : SpellsWord ['t', 'r', 'u', 'e'] (.bool true)
  | isFalse : SpellsWord ['f', 'a', 'l', 's', 'e'] (.bool false)
  | number {literal : List Char} {n : Number} (reads : IsLiteral literal n)
      (nearest : ∀ x, n = .double x → (∃ c ∈ literal, c = '.' ∨ c = 'e' ∨ c = 'E') ∧
        Numeral.double? literal = some (.finite x)) : SpellsWord literal (.number n)

/-- A value, or what is left of a list or of an object: its items or its entries, of which those
that were read before are left out. -/
inductive Piece where
  | value (v : Value)
  | items (first : Bool) (vs : List Value)
  | entries (first : Bool) (fields : Fields Value)

def PassesComma (first : Bool) (text next : List Char) : Prop :=
  if first then next = text else afterBlanks text = ',' :: next

/-- A text begins with the spelling of a piece in which at most `room` containers lie inside each
other, and another text follows. -/
inductive Spells : Nat → Piece → List Char → List Char → Prop where
  | word {room : Nat} {text more : List Char} {v : Value} (word : List Char)
      (start : afterBlanks text = word ++ more) (ends : EndsPart more)
      (means : SpellsWord word v) : Spells room (.value v) text more
  | string {room : Nat} {text chars s more : List Char} (start : afterBlanks text = '"' :: chars)
      (means : SpellsChars chars s more) :
      Spells room (.value (.string (String.ofList s))) text more
  | list {room : Nat} {text after more : List Char} {vs : List Value}
      (start : afterBlanks text = '[' :: after) (items : Spells room (.items true vs) after more) :
      Spells (room + 1) (.value (.array vs)) text more
  | object {room : Nat} {text after more : List Char} {fields : Fields Value}
      (start : afterBlanks text = '\x7b' :: after)
      (entries : Spells room (.entries true fields) after more) :
      Spells (room + 1) (.value (.object (Fields.merge [] fields))) text more
  | noItem {room : Nat} {first : Bool} {text more : List Char}
      (close : afterBlanks text = ']' :: more) : Spells room (.items first []) text more
  | item {room : Nat} {first : Bool} {text next rest more : List Char} {v : Value}
      {vs : List Value} (comma : PassesComma first text next)
      (value : Spells room (.value v) next rest)
      (others : Spells room (.items false vs) rest more) :
      Spells room (.items first (v :: vs)) text more
  | noEntry {room : Nat} {first : Bool} {text more : List Char}
      (close : afterBlanks text = '\x7d' :: more) : Spells room (.entries first []) text more
  | entry {room : Nat} {first : Bool} {text next chars key after rest more : List Char}
      {v : Value} {fields : Fields Value} (gap : List Char) (comma : PassesComma first text next)
      (quote : afterBlanks next = '"' :: chars)
      (means : SpellsChars chars key (gap ++ ':' :: after))
      (line : ∀ c ∈ gap, Yaml.isBlank c = true)
      (close : Yaml.byteCount chars ≤ Yaml.byteCount after + 1024)
      (value : Spells room (.value v) after rest)
      (others : Spells room (.entries false fields) rest more) :
      Spells room (.entries first ((String.ofList key, v) :: fields)) text more

/-- An object that is spelled as JSON and YAML both spell it, in printable characters, with nothing
but blanks around it. -/
structure IsShared (text : List Char) (fields : Fields Value) : Prop where
  printable : text.all Yaml.isAllowed = true
  spelled : ∃ before body after, text = before ++ '\x7b' :: body ∧
    (∀ c ∈ before ++ after, Cursor.isSpace c = true ∧ c ≠ '\t') ∧
    Spells (depthLimit - 1) (.entries true fields) body after

theorem SpellsWord.cons {word : List Char} {v : Value} (h : SpellsWord word v) :
    ∃ c rest, word = c :: rest ∧ ((c = 'n' ∨ c = 't' ∨ c = 'f' ∨ Numeral.isDigit c = true) ∨
      c = '-' ∧ ∃ d more, rest = d :: more ∧ Numeral.isDigit d = true) := by
  cases h with
  | null | isTrue | isFalse => exact ⟨_, _, rfl, by simp⟩
  | number reads =>
    cases reads with
    | negative reads => exact ⟨'-', _, rfl, .inr ⟨rfl, (readUnsigned_ok reads).2.1.digitFirst⟩⟩
    | unsigned reads =>
      obtain ⟨d, rest, rfl, hd⟩ := (readUnsigned_ok reads).2.1.digitFirst
      exact ⟨d, rest, rfl, by simp [hd]⟩

/-- No value begins with a mark that ends a container, nor with a comma. -/
theorem Spells.head {room : Nat} {v : Value} {text more : List Char}
    (h : Spells room (.value v) text more) :
    ∃ c rest, afterBlanks text = c :: rest ∧ c ≠ ']' ∧ c ≠ '\x7d' ∧ c ≠ ',' := by
  cases h with
  | word _ start ends means =>
    obtain ⟨c, rest, rfl, hc⟩ := means.cons
    refine ⟨c, rest ++ more, start, ?_⟩
    obtain (rfl | rfl | rfl | hc) | ⟨rfl, -⟩ := hc
    all_goals try decide
    exact ⟨Numeral.ne_of_isDigit hc (by decide), Numeral.ne_of_isDigit hc (by decide),
      Numeral.ne_of_isDigit hc (by decide)⟩
  | string start | list start | object start => exact ⟨_, _, start, by decide⟩

theorem PassesComma.length_le {first : Bool} {text next : List Char}
    (h : PassesComma first text next) :
    (afterBlanks next).length ≤ (afterBlanks text).length := by
  unfold PassesComma at h
  split at h
  · rw [h]
  · rw [h]
    exact (length_afterBlanks_le next).trans (Nat.le_succ _)

theorem length_lt_of_key {first : Bool} {text next chars key gap after : List Char}
    (hcomma : PassesComma first text next) (hquote : afterBlanks next = '"' :: chars)
    (hkey : SpellsChars chars key (gap ++ ':' :: after)) :
    after.length < (afterBlanks text).length := by
  have hnext := hcomma.length_le
  have hlength := hkey.length_lt
  rw [hquote] at hnext
  simp only [List.length_append, List.length_cons] at hlength hnext
  omega

theorem Spells.length_lt {room : Nat} {piece : Piece} {text more : List Char}
    (h : Spells room piece text more) : more.length < (afterBlanks text).length := by
  induction h with
  | word _ start ends means =>
    obtain ⟨c, rest, rfl, -⟩ := means.cons
    rw [start, List.cons_append, List.length_cons, List.length_append]
    omega
  | string start means =>
    rw [start]
    exact means.length_lt.trans (Nat.lt_succ_self _)
  | list start items ih | object start entries ih =>
    rw [start]
    exact (ih.trans_le (length_afterBlanks_le _)).trans (Nat.lt_succ_self _)
  | noItem close | noEntry close =>
    rw [close]
    exact Nat.lt_succ_self _
  | item comma value others ihv iho =>
    exact (iho.trans_le (length_afterBlanks_le _)).trans (ihv.trans_le comma.length_le)
  | entry _ comma quote means line close value others ihv iho =>
    have hvalue := ihv.trans_le (length_afterBlanks_le _)
    have hothers := iho.trans_le (length_afterBlanks_le _)
    exact (hothers.trans hvalue).trans (length_lt_of_key comma quote means)

/-! ## Reading -/

theorem EndsPart.endsLiteral {more : List Char} (h : EndsPart more) : EndsLiteral more := by
  obtain ⟨c, tail, hstart, hc⟩ := h
  cases more with
  | nil => cases hstart
  | cons d rest =>
    refine ⟨d, rest, rfl, ?_⟩
    cases hd : Cursor.isSpace d with
    | false =>
      rw [afterBlanks_cons hd] at hstart
      obtain ⟨rfl, -⟩ := List.cons.inj hstart
      obtain rfl | rfl | rfl := hc
      all_goals decide
    | true =>
      have hblank : d = ' ' ∨ d = '\n' ∨ d = '\t' ∨ d = '\r' := by
        simpa [Cursor.isSpace, or_assoc] using hd
      obtain rfl | rfl | rfl | rfl := hblank
      all_goals decide

theorem skipSpace_eq (cursor : Cursor) {cs : List Char} (h : afterBlanks cursor.rest = cs) :
    ∃ place, cursor.skipSpace = ⟨cs, place⟩ := by
  refine ⟨cursor.skipSpace.place, ?_⟩
  rw [← h, ← rest_skipSpace]

theorem readValue_of_scalar {cursor : Cursor} {c : Char} {rest : List Char} {place : Place}
    (h : cursor.skipSpace = ⟨c :: rest, place⟩) (hlist : c ≠ '[') (hobject : c ≠ '\x7b')
    (room : Nat) : readValue room cursor = readScalar ⟨c :: rest, place⟩ c rest := by
  rw [readValue.eq_def]
  dsimp only
  rw [h]
  split
  · cases ‹c :: rest = []›
  · exact absurd (List.cons.inj ‹_›).1 hlist
  · exact absurd (List.cons.inj ‹_›).1 hobject
  · rename_i hcons
    obtain ⟨rfl, rfl⟩ := List.cons.inj hcons
    rfl

theorem readScalar_of_literal {literal more : List Char} {n : Number} (h : IsLiteral literal n)
    (hmore : EndsLiteral more) (place : Place) :
    ∃ c rest last, literal ++ more = c :: rest ∧ c ≠ '[' ∧ c ≠ '\x7b' ∧
      readScalar ⟨c :: rest, place⟩ c rest = .ok (.number n, ⟨more, last⟩) := by
  cases h with
  | @negative literal _ _ _ reads =>
    obtain ⟨last, hread⟩ := (readUnsigned_ok reads).1 hmore (place.pass '-' 1)
    refine ⟨'-', _, last, rfl, by decide, by decide, ?_⟩
    change (readUnsigned true ⟨literal ++ more, place.pass '-' 1⟩ >>= _) = _
    rw [hread]
    rfl
  | unsigned reads =>
    obtain ⟨hreads, hshape, -⟩ := readUnsigned_ok reads
    obtain ⟨d, rest, rfl, hd⟩ := hshape.digitFirst
    obtain ⟨last, hread⟩ := hreads hmore place
    have hne {c : Char} (hc : Numeral.isDigit c = false) : d ≠ c := Numeral.ne_of_isDigit hd hc
    refine ⟨d, rest ++ more, last, rfl, hne (by decide), hne (by decide), ?_⟩
    unfold readScalar
    rw [if_neg (hne (by decide)), if_neg (hne (by decide)), if_neg (hne (by decide)),
      if_neg (hne (by decide)), if_pos hd]
    change (readUnsigned false ⟨d :: rest ++ more, place⟩ >>= _) = _
    rw [hread]
    rfl

theorem readValue_of_word {word more : List Char} {v : Value} (h : SpellsWord word v)
    (hmore : EndsPart more) {cursor : Cursor} (hstart : afterBlanks cursor.rest = word ++ more)
    (room : Nat) : ∃ last, readValue room cursor = .ok (v, ⟨more, last⟩) := by
  obtain ⟨place, hskip⟩ := skipSpace_eq cursor hstart
  cases h with
  | null | isTrue | isFalse =>
    exact ⟨_, (readValue_of_scalar hskip (by decide) (by decide) room).trans rfl⟩
  | number reads =>
    obtain ⟨c, rest, last, hcons, hlist, hobject, hread⟩ :=
      readScalar_of_literal reads hmore.endsLiteral place
    rw [hcons] at hskip
    exact ⟨last, (readValue_of_scalar hskip hlist hobject room).trans hread⟩

/-- The reader reads a piece, which may come after blanks. -/
def Piece.IsRead (room : Nat) (text more : List Char) : Piece → Prop
  | .value v => ∀ cursor : Cursor, afterBlanks cursor.rest = afterBlanks text →
      ∃ last, readValue room cursor = .ok (v, ⟨more, last⟩)
  | .items first vs => ∀ cursor : Cursor, afterBlanks cursor.rest = afterBlanks text →
      ∀ read steps, cursor.rest.length < steps → ∃ last,
        readItems (readValue room) read first cursor steps =
          .ok (.array (read.reverse ++ vs), ⟨more, last⟩)
  | .entries first fields => ∀ cursor : Cursor, afterBlanks cursor.rest = afterBlanks text →
      ∀ read steps, cursor.rest.length < steps → ∃ last,
        readFields (readValue room) read first cursor steps =
          .ok (.object (Fields.merge read fields), ⟨more, last⟩)

theorem toItem_of_comma {first : Bool} {text next rest : List Char} {c : Char}
    (hcomma : PassesComma first text next) (hnext : afterBlanks next = c :: rest)
    (hc : c ≠ ']') {cursor : Cursor} (hcursor : afterBlanks cursor.rest = afterBlanks text) :
    ∃ place, cursor.toItem first = .ok (true, ⟨c :: rest, place⟩) := by
  cases first with
  | true =>
    obtain rfl : next = text := hcomma
    obtain ⟨place, hskip⟩ := skipSpace_eq cursor (hcursor.trans hnext)
    exact ⟨place, by simp [Cursor.toItem, hskip]⟩
  | false =>
    obtain ⟨place, hskip⟩ := skipSpace_eq cursor (hcursor.trans hcomma)
    obtain ⟨after, hafter⟩ := skipSpace_eq ⟨next, place.pass ',' 1⟩ hnext
    have hafter' : (Cursor.next ⟨',' :: next, place⟩ ',' next).skipSpace = ⟨c :: rest, after⟩ :=
      hafter
    exact ⟨after, by simp [Cursor.toItem, hskip, hafter', hc]⟩

theorem toItem_of_close {first : Bool} {more : List Char} {cursor : Cursor}
    (h : afterBlanks cursor.rest = ']' :: more) :
    ∃ next last, cursor.toItem first = .ok (false, next) ∧ next.closeList = .ok ⟨more, last⟩ := by
  obtain ⟨place, hskip⟩ := skipSpace_eq cursor h
  exact ⟨⟨']' :: more, place⟩, place.pass ']' 1, by simp [Cursor.toItem, hskip], rfl⟩

theorem toKey_of_comma {first : Bool} {text next chars : List Char}
    (hcomma : PassesComma first text next) (hnext : afterBlanks next = '"' :: chars)
    {cursor : Cursor} (hcursor : afterBlanks cursor.rest = afterBlanks text) :
    ∃ place, cursor.toKey first = .ok (true, ⟨chars, place⟩) := by
  cases first with
  | true =>
    obtain rfl : next = text := hcomma
    obtain ⟨place, hskip⟩ := skipSpace_eq cursor (hcursor.trans hnext)
    exact ⟨_, by simp only [Cursor.toKey, hskip, if_true]; rfl⟩
  | false =>
    obtain ⟨place, hskip⟩ := skipSpace_eq cursor (hcursor.trans hcomma)
    obtain ⟨after, hafter⟩ := skipSpace_eq ⟨next, place.pass ',' 1⟩ hnext
    have hafter' : (Cursor.next ⟨',' :: next, place⟩ ',' next).skipSpace = ⟨'"' :: chars, after⟩ :=
      hafter
    exact ⟨after.pass '"' 1, by simp [Cursor.toKey, hskip, hafter']; rfl⟩

theorem toKey_of_close (first : Bool) {more : List Char} {cursor : Cursor}
    (h : afterBlanks cursor.rest = '\x7d' :: more) :
    ∃ next last, cursor.toKey first = .ok (false, next) ∧
      next.closeObject = .ok ⟨more, last⟩ := by
  obtain ⟨place, hskip⟩ := skipSpace_eq cursor h
  exact ⟨⟨'\x7d' :: more, place⟩, place.pass '\x7d' 1, by simp [Cursor.toKey, hskip], rfl⟩

theorem afterBlanks_gap {gap : List Char} (h : ∀ c ∈ gap, Yaml.isBlank c = true) {c : Char}
    (hc : Cursor.isSpace c = false) (rest : List Char) :
    afterBlanks (gap ++ c :: rest) = c :: rest := by
  have hgap : ∀ d ∈ gap, Cursor.isSpace d = true := by
    intro d hd
    have hblank : d = ' ' ∨ d = '\t' := by simpa [Yaml.isBlank] using h d hd
    obtain rfl | rfl := hblank
    all_goals decide
  rw [afterBlanks, List.dropWhile_append_of_pos hgap]
  exact afterBlanks_cons hc rest

theorem passColon_of_gap {gap : List Char} (h : ∀ c ∈ gap, Yaml.isBlank c = true)
    (after : List Char) (place : Place) :
    ∃ last, Cursor.passColon ⟨gap ++ ':' :: after, place⟩ = .ok ⟨after, last⟩ := by
  obtain ⟨reached, hskip⟩ := skipSpace_eq ⟨gap ++ ':' :: after, place⟩
    (afterBlanks_gap h (by decide) after)
  refine ⟨reached.pass ':' 1, ?_⟩
  unfold Cursor.passColon
  rw [hskip]
  rfl

/-- JSON reads a text as the grammar says. -/
theorem Spells.isRead {room : Nat} {piece : Piece} {text more : List Char}
    (h : Spells room piece text more) : piece.IsRead room text more := by
  -- every part takes characters, so that the steps last for what follows it
  induction h with
  | word _ start ends means =>
    intro cursor hcursor
    exact readValue_of_word means ends (hcursor.trans start) _
  | @string room text chars s more start means =>
    intro cursor hcursor
    obtain ⟨place, hskip⟩ := skipSpace_eq cursor (hcursor.trans start)
    obtain ⟨last, hread⟩ := readString_of_spells means (place.pass '"' 1)
    refine ⟨last, (readValue_of_scalar hskip (by decide) (by decide) room).trans ?_⟩
    change (readString ⟨chars, place.pass '"' 1⟩ >>= _) = _
    rw [hread]
    rfl
  | @list room text after more vs start items ih =>
    intro cursor hcursor
    obtain ⟨place, hskip⟩ := skipSpace_eq cursor (hcursor.trans start)
    obtain ⟨last, hread⟩ := ih ⟨after, place.pass '[' 1⟩ rfl [] _ (Nat.lt_succ_self _)
    refine ⟨last, ?_⟩
    rw [readValue.eq_def]
    dsimp only
    rw [hskip]
    exact hread
  | @object room text after more fields start entries ih =>
    intro cursor hcursor
    obtain ⟨place, hskip⟩ := skipSpace_eq cursor (hcursor.trans start)
    obtain ⟨last, hread⟩ := ih ⟨after, place.pass '\x7b' 1⟩ rfl [] _ (Nat.lt_succ_self _)
    refine ⟨last, ?_⟩
    rw [readValue.eq_def]
    dsimp only
    rw [hskip]
    exact hread
  | @noItem room first text more close =>
    intro cursor hcursor read steps hsteps
    obtain ⟨steps, rfl⟩ := Nat.exists_eq_add_one_of_ne_zero (Nat.ne_zero_of_lt hsteps)
    obtain ⟨next, last, hitem, hclose⟩ := toItem_of_close (hcursor.trans close)
    refine ⟨last, ?_⟩
    rw [readItems, hitem]
    change (next.closeList >>= _) = _
    rw [hclose, List.append_nil]
    rfl
  | @item room first text next rest more v vs comma value others ihv iho =>
    intro cursor hcursor read steps hsteps
    obtain ⟨steps, rfl⟩ := Nat.exists_eq_add_one_of_ne_zero (Nat.ne_zero_of_lt hsteps)
    obtain ⟨c, tail, hhead, hc, -⟩ := value.head
    obtain ⟨place, hitem⟩ := toItem_of_comma comma hhead hc hcursor
    obtain ⟨reached, hvalue⟩ := ihv ⟨c :: tail, place⟩ (by rw [← hhead, afterBlanks_idem])
    have hlength : rest.length < cursor.rest.length := by
      refine (value.length_lt.trans_le comma.length_le).trans_le ?_
      rw [← hcursor]
      exact length_afterBlanks_le _
    obtain ⟨last, hothers⟩ := iho ⟨rest, reached⟩ rfl (v :: read) steps (by dsimp only; omega)
    rw [List.reverse_cons, List.append_assoc] at hothers
    refine ⟨last, ?_⟩
    rw [readItems, hitem]
    change (readValue room ⟨c :: tail, place⟩ >>= _) = _
    rw [hvalue]
    exact hothers
  | @noEntry room first text more close =>
    intro cursor hcursor read steps hsteps
    obtain ⟨steps, rfl⟩ := Nat.exists_eq_add_one_of_ne_zero (Nat.ne_zero_of_lt hsteps)
    obtain ⟨next, last, hkey, hclose⟩ := toKey_of_close first (hcursor.trans close)
    refine ⟨last, ?_⟩
    rw [readFields, hkey]
    change (next.closeObject >>= _) = _
    rw [hclose]
    rfl
  | @entry room first text next chars key after rest more v fields gap comma quote means line
      close value others ihv iho =>
    intro cursor hcursor read steps hsteps
    obtain ⟨steps, rfl⟩ := Nat.exists_eq_add_one_of_ne_zero (Nat.ne_zero_of_lt hsteps)
    obtain ⟨place, hkey⟩ := toKey_of_comma comma quote hcursor
    obtain ⟨passed, hstring⟩ := readString_of_spells means place
    obtain ⟨reached, hcolon⟩ := passColon_of_gap line after passed
    obtain ⟨found, hvalue⟩ := ihv ⟨after, reached⟩ rfl
    have hlength : rest.length < cursor.rest.length := by
      have hvalue := value.length_lt.trans_le (length_afterBlanks_le _)
      refine (hvalue.trans (length_lt_of_key comma quote means)).trans_le ?_
      rw [← hcursor]
      exact length_afterBlanks_le _
    obtain ⟨last, hothers⟩ :=
      iho ⟨rest, found⟩ rfl (read.insert (String.ofList key) v) steps (by dsimp only; omega)
    refine ⟨last, ?_⟩
    rw [readFields, hkey]
    change (readString ⟨chars, place⟩ >>= _) = _
    rw [hstring]
    change (Cursor.passColon ⟨gap ++ ':' :: after, passed⟩ >>= _) = _
    rw [hcolon]
    change (readValue room ⟨after, reached⟩ >>= _) = _
    rw [hvalue]
    exact hothers

end PayloadMapping.Json
