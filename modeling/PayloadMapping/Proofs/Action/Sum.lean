import PayloadMapping.Action.Apply
import PayloadMapping.Proofs.Action.Quantity
import PayloadMapping.Proofs.Path.Text

set_option autoImplicit false

/-!
# Sums over records

A sum goes through the amounts of all listed records in their order, its addends. It fails if a
listed path leads to something else than a list, or if an addend is not numeric; apart from that
only the addends count. The total of integers is an integer, and then exact, as long as no sum on
the way leaves 64 bits.
-/

namespace PayloadMapping.Action

/-- The path leads to a value that is neither null nor a list. -/
def LeadsElsewhere (scope : Value) (path : Path) : Prop :=
  ∃ v, path.read scope = .ok v ∧ v.kind ≠ .null ∧ v.kind ≠ .array

instance (scope : Value) (path : Path) : Decidable (LeadsElsewhere scope path) :=
  match h : path.read scope with
  | .ok v =>
    decidable_of_iff (v.kind ≠ .null ∧ v.kind ≠ .array)
      ⟨fun hkind => ⟨v, h, hkind⟩, fun ⟨_, hv, hkind⟩ => Except.ok.inj (h.symm.trans hv) ▸ hkind⟩
  | .error _ => isFalse fun ⟨_, hread, _⟩ => nomatch h.symm.trans hread

def recordsAt (scope : Value) (path : Path) : List Value :=
  match path.read scope with
  | .ok (.array records) => records
  | _ => []

def amountOf? (key : String) (record : Value) : Option Value :=
  (record.field? key).filter (· ≠ .null)

/-- The amounts of the records at the paths, one list after the other. -/
def addends (key : String) (scope : Value) (paths : List Path) : List Value :=
  paths.flatMap fun path => (recordsAt scope path).filterMap (amountOf? key)

/-- An entry of a list of paths without a record behind it: a blank one, or a path that leads
nowhere or to null. -/
def AddsNothing (scope : Value) (entry : String) : Prop :=
  Text.trim entry = "" ∨ (∃ e, (Path.parse (Text.trim entry)).read scope = .error e) ∨
    (Path.parse (Text.trim entry)).read scope = .ok .null

theorem amountOf?_eq_some_iff {key : String} {record v : Value} :
    amountOf? key record = some v ↔ record.field? key = some v ∧ v ≠ .null := by
  simp [amountOf?, Option.filter_eq_some_iff]

theorem amounts_eq (key : String) (records : List Value) :
    amounts key records = records.filterMap (amountOf? key) := by
  simp only [amounts, List.filter_filterMap]
  rfl

theorem mem_addends_iff {key : String} {scope v : Value} {paths : List Path} :
    v ∈ addends key scope paths ↔ ∃ path ∈ paths, ∃ records,
      path.read scope = .ok (.array records) ∧
        ∃ record ∈ records, record.field? key = some v ∧ v ≠ .null := by
  simp only [addends, List.mem_flatMap, List.mem_filterMap, amountOf?_eq_some_iff]
  refine exists_congr fun path => and_congr_right fun _ => ?_
  constructor
  · rintro ⟨record, hrecord, hamount⟩
    unfold recordsAt at hrecord
    split at hrecord
    · rename_i records hread
      exact ⟨records, hread, record, hrecord, hamount⟩
    · cases hrecord
  · rintro ⟨records, hread, record, hrecord, hamount⟩
    refine ⟨record, ?_, hamount⟩
    unfold recordsAt
    rwa [hread]

/-! ## Adding amounts -/

theorem addAmounts_append (total : Total) (vs ws : List Value) :
    addAmounts total (vs ++ ws) = (addAmounts total vs).bind fun t => addAmounts t ws := by
  induction vs generalizing total with
  | nil => rfl
  | cons v rest ih =>
    rw [List.cons_append, addAmounts, addAmounts]
    cases Quantity.ofValue sumName v with
    | ok q => exact ih (total.add q)
    | error e => rfl

theorem addAmounts_eq_ok_iff {total sum : Total} {vs : List Value} :
    addAmounts total vs = .ok sum ↔
      ∃ qs, List.Forall₂ Value.CountsAs vs qs ∧ sum = qs.foldl Total.add total := by
  induction vs generalizing total with
  | nil => simp [addAmounts, eq_comm]
  | cons v rest ih =>
    rw [addAmounts]
    cases hv : Quantity.ofValue sumName v with
    | ok q =>
      have hcounts := Quantity.ofValue_eq_ok_iff.1 hv
      rw [ih]
      constructor
      · rintro ⟨qs, hqs, rfl⟩
        exact ⟨q :: qs, .cons hcounts hqs, rfl⟩
      · rintro ⟨qs, hqs, rfl⟩
        cases hqs with
        | @cons _ q' _ qs hcounts' hqs =>
          obtain rfl := hcounts.unique hcounts'
          exact ⟨qs, hqs, rfl⟩
    | error e =>
      refine iff_of_false (fun h => by cases h) ?_
      rintro ⟨qs, hqs, -⟩
      cases hqs with
      | cons hcounts _ =>
        rw [Quantity.ofValue_eq_ok_iff.2 hcounts] at hv
        cases hv

/-! ## One listed path after the other -/

variable {key : String} {scope : Value} {total : Total} {path : Path} {rest : List Path}

theorem addLists_elsewhere (h : LeadsElsewhere scope path) :
    ∃ e, addLists key scope total (path :: rest) = .error e := by
  obtain ⟨v, hread, hnull, hlist⟩ := h
  rw [addLists, hread]
  cases v with
  | null => exact absurd rfl hnull
  | array records => exact absurd rfl hlist
  | bool _ | number _ | string _ | object _ => exact ⟨_, rfl⟩

theorem addLists_cons (h : ¬LeadsElsewhere scope path) :
    addLists key scope total (path :: rest) =
      (addAmounts total ((recordsAt scope path).filterMap (amountOf? key))).bind
        fun sum => addLists key scope sum rest := by
  rw [addLists]
  unfold recordsAt
  cases hread : path.read scope with
  | error e => rfl
  | ok v =>
    cases v with
    | null => rfl
    | array records =>
      dsimp only
      rw [amounts_eq]
      cases addAmounts total (records.filterMap (amountOf? key)) <;> rfl
    | bool _ | number _ | string _ | object _ => exact absurd ⟨_, hread, nofun, nofun⟩ h

/-- Only the addends count if no path leads elsewhere. -/
theorem addLists_eq {paths : List Path} (h : ∀ path ∈ paths, ¬LeadsElsewhere scope path) :
    addLists key scope total paths = addAmounts total (addends key scope paths) := by
  induction paths generalizing total with
  | nil => rfl
  | cons path rest ih =>
    obtain ⟨hpath, hrest⟩ := List.forall_mem_cons.1 h
    unfold addends
    rw [addLists_cons hpath, List.flatMap_cons, addAmounts_append]
    exact congrArg _ (funext fun sum => ih hrest)

theorem not_leadsElsewhere_of_ok {paths : List Path} {sum : Total}
    (h : addLists key scope total paths = .ok sum) :
    ∀ path ∈ paths, ¬LeadsElsewhere scope path := by
  induction paths generalizing total with
  | nil => exact fun path hpath => by cases hpath
  | cons path rest ih =>
    have hpath : ¬LeadsElsewhere scope path := by
      intro helsewhere
      obtain ⟨e, he⟩ : ∃ e, addLists key scope total (path :: rest) = .error e :=
        addLists_elsewhere helsewhere
      rw [he] at h
      cases h
    rw [addLists_cons hpath] at h
    cases hadded : addAmounts total ((recordsAt scope path).filterMap (amountOf? key)) with
    | error e =>
      rw [hadded] at h
      cases h
    | ok next =>
      rw [hadded] at h
      exact List.forall_mem_cons.2 ⟨hpath, ih h⟩

theorem addLists_skip (h : (∃ e, path.read scope = .error e) ∨ path.read scope = .ok .null)
    (before after : List Path) :
    addLists key scope total (before ++ path :: after) =
      addLists key scope total (before ++ after) := by
  induction before generalizing total with
  | nil =>
    rw [List.nil_append, List.nil_append, addLists]
    obtain ⟨e, he⟩ | hnull := h
    · rw [he]
    · rw [hnull]
  | cons first more ih => simp only [List.cons_append, addLists, ih]

/-! ## The sum of the listed records -/

theorem sumField_eq_ok_iff {lists key : String} {scope w : Value} :
    sumField lists key scope = .ok w ↔
      (∀ path ∈ pathList lists, ¬LeadsElsewhere scope path) ∧
        ∃ qs, List.Forall₂ Value.CountsAs (addends key scope (pathList lists)) qs ∧
          w = (qs.foldl Total.add .zero).value := by
  unfold sumField
  constructor
  · intro h
    cases hadded : addLists key scope .zero (pathList lists) with
    | error e =>
      rw [hadded] at h
      cases h
    | ok sum =>
      have hlists := not_leadsElsewhere_of_ok hadded
      rw [hadded] at h
      rw [addLists_eq hlists] at hadded
      obtain ⟨qs, hqs, rfl⟩ := addAmounts_eq_ok_iff.1 hadded
      exact ⟨hlists, qs, hqs, (Except.ok.inj h).symm⟩
  · rintro ⟨hlists, qs, hqs, rfl⟩
    rw [addLists_eq hlists, addAmounts_eq_ok_iff.2 ⟨qs, hqs, rfl⟩]

theorem forall₂_countsAs_iff {vs : List Value} :
    (∃ qs, List.Forall₂ Value.CountsAs vs qs) ↔ ∀ v ∈ vs, v.IsNumeric := by
  induction vs with
  | nil => simp
  | cons v rest ih =>
    rw [List.forall_mem_cons, ← ih, Value.isNumeric_iff]
    constructor
    · rintro ⟨qs, hqs⟩
      cases hqs with
      | cons hv hrest => exact ⟨⟨_, hv⟩, _, hrest⟩
    · rintro ⟨⟨q, hq⟩, qs, hqs⟩
      exact ⟨q :: qs, .cons hq hqs⟩

theorem sumField_error_iff {lists key : String} {scope : Value} :
    (∃ e, sumField lists key scope = .error e) ↔
      (∃ path ∈ pathList lists, LeadsElsewhere scope path) ∨
        ∃ v ∈ addends key scope (pathList lists), ¬v.IsNumeric := by
  have hok : (∃ w, sumField lists key scope = .ok w) ↔
      (∀ path ∈ pathList lists, ¬LeadsElsewhere scope path) ∧
        ∀ v ∈ addends key scope (pathList lists), v.IsNumeric := by
    simp only [sumField_eq_ok_iff, ← forall₂_countsAs_iff]
    constructor
    · rintro ⟨w, hlists, qs, hqs, -⟩
      exact ⟨hlists, qs, hqs⟩
    · rintro ⟨hlists, qs, hqs⟩
      exact ⟨_, hlists, qs, hqs, rfl⟩
  have hcases : (∃ e, sumField lists key scope = .error e) ↔
      ¬∃ w, sumField lists key scope = .ok w := by
    cases sumField lists key scope <;> simp
  rw [hcases, hok, not_and_or]
  push Not
  rfl

theorem pathList_join {entries : List String} (h : ∀ s ∈ entries, ',' ∉ s.toList) :
    pathList (Text.join "," entries) =
      ((entries.map Text.trim).filter (· ≠ "")).map Path.parse := by
  have hpieces : ((Text.pieces ',' (Text.join "," entries).toList).map Text.trimList).filter
      (· ≠ []) = ((entries.map String.toList).map Text.trimList).filter (· ≠ []) := by
    by_cases hentries : entries = []
    · subst hentries
      rfl
    · rw [show "," = String.ofList [','] from rfl, Text.pieces_join hentries h]
  unfold pathList
  rw [hpieces]
  simp only [List.filter_map, List.map_map]
  congr 1
  refine List.filter_congr fun s _ => ?_
  simp [Text.trim]

theorem sumField_skip {before after : List String} {entry : String}
    (hentries : ∀ s ∈ before ++ entry :: after, ',' ∉ s.toList) (h : AddsNothing scope entry) :
    sumField (Text.join "," (before ++ entry :: after)) key scope =
      sumField (Text.join "," (before ++ after)) key scope := by
  have hothers : ∀ s ∈ before ++ after, ',' ∉ s.toList := by
    intro s hs
    refine hentries s ?_
    rw [List.mem_append] at hs ⊢
    exact hs.imp_right (List.mem_cons_of_mem entry)
  unfold sumField
  rw [pathList_join hentries, pathList_join hothers]
  simp only [List.map_append, List.map_cons, List.filter_append]
  by_cases hblank : Text.trim entry = ""
  · rw [List.filter_cons_of_neg (by simpa using hblank)]
  · rw [List.filter_cons_of_pos (by simpa using hblank), List.map_cons,
      addLists_skip (h.resolve_left hblank)]

def AreIntegers (values : List Value) (terms : List Int) : Prop :=
  List.Forall₂ (fun v term => v.CountsAs (.whole term)) values terms

/-- A sum fails exactly on a path that leads elsewhere and on an amount that is not numeric. An
integer sum is exact. Apart from the failure for a path the addends alone decide: entries, lists
and records without an amount add nothing. -/
theorem sumField_of_addends (lists key : String) (scope : Value) :
    ((∃ e, sumField lists key scope = .error e) ↔
      (∃ path ∈ pathList lists, LeadsElsewhere scope path) ∨
        ∃ path ∈ pathList lists, ∃ records, path.read scope = .ok (.array records) ∧
          ∃ record ∈ records, ∃ v, record.field? key = some v ∧ v ≠ .null ∧ ¬v.IsNumeric) ∧
    (∀ n inRange, sumField lists key scope = .ok (.number (.whole n inRange)) →
      ∃ terms, AreIntegers (addends key scope (pathList lists)) terms ∧ n = terms.sum) ∧
    (∀ lists' key' scope', (∀ path ∈ pathList lists, ¬LeadsElsewhere scope path) →
      (∀ path ∈ pathList lists', ¬LeadsElsewhere scope' path) →
      addends key' scope' (pathList lists') = addends key scope (pathList lists) →
      sumField lists' key' scope' = sumField lists key scope) ∧
    (∀ before entry after, lists = Text.join "," (before ++ entry :: after) →
      (∀ s ∈ before ++ entry :: after, ',' ∉ s.toList) → AddsNothing scope entry →
      sumField lists key scope = sumField (Text.join "," (before ++ after)) key scope) ∧
    ∀ record, amountOf? key record = none ↔
      (∀ fields, record ≠ .object fields) ∨ record.field? key = none ∨
        record.field? key = some .null := by
  refine ⟨?_, ?_, ?_, ?_, fun record => ?_⟩
  · rw [sumField_error_iff]
    refine or_congr_right ?_
    simp only [mem_addends_iff]
    constructor
    · rintro ⟨v, ⟨path, hpath, records, hread, record, hrecord, hfield, hnull⟩, hv⟩
      exact ⟨path, hpath, records, hread, record, hrecord, v, hfield, hnull, hv⟩
    · rintro ⟨path, hpath, records, hread, record, hrecord, v, hfield, hnull, hv⟩
      exact ⟨v, ⟨path, hpath, records, hread, record, hrecord, hfield, hnull⟩, hv⟩
  · intro n inRange h
    obtain ⟨-, qs, hqs, hvalue⟩ := sumField_eq_ok_iff.1 h
    obtain ⟨terms, rfl, hsum, -⟩ :=
      Total.whole_total_iff.1 (Total.value_eq_whole_iff.1 hvalue.symm)
    exact ⟨terms, List.forall₂_map_right_iff.1 hqs, hsum⟩
  · intro lists' key' scope' hlists hlists' haddends
    unfold sumField
    rw [addLists_eq hlists, addLists_eq hlists', haddends]
  · rintro before entry after rfl hentries hentry
    exact sumField_skip hentries hentry
  · cases record with
    | object fields =>
      unfold amountOf?
      cases (Value.object fields).field? key <;> simp
    | null | bool _ | number _ | string _ | array _ => simp [amountOf?, Value.field?]

/-- A blank entry, null under a path and records without an amount do not count; a path that is
listed twice counts twice. -/
theorem sumField_of_addends_fares :
    let record (v : Value) : Value := .object [("fare", v)]
    let thirty : Value := .number (.whole 30 (by decide))
    let scope : Value := .object [("back", .null),
      ("legs", .array [record thirty, record (.string " 12 "), record .null, .string "taxi"])]
    let plain : Value := .object [("legs", .array [record thirty, record (.string " 12 ")])]
    sumField "legs, back,legs" "fare" scope = .ok (.number (.whole 84 (by decide))) ∧
      (∃ terms, AreIntegers (addends "fare" scope (pathList "legs, back,legs")) terms ∧
        84 = terms.sum) ∧
      sumField "legs,legs" "fare" plain = sumField "legs, back,legs" "fare" scope ∧
      sumField "legs, back,legs" "fare" scope = sumField "legs,legs" "fare" scope := by
  intro record thirty scope plain
  have hsum : sumField "legs, back,legs" "fare" scope = .ok (.number (.whole 84 (by decide))) := by
    decide +kernel
  obtain ⟨-, hwhole, hsame, hskip, -⟩ := sumField_of_addends "legs, back,legs" "fare" scope
  refine ⟨hsum, hwhole 84 _ hsum, ?_, ?_⟩
  · exact hsame "legs,legs" "fare" plain (by decide +kernel) (by decide +kernel) (by decide +kernel)
  · exact hskip ["legs"] " back" ["legs"] rfl (by decide) (.inr (.inr (by decide +kernel)))

/-! ## Sums of integers -/

theorem sumField_of_areIntegers {lists key : String} {scope : Value} {terms : List Int}
    (hlists : ∀ path ∈ pathList lists, ¬LeadsElsewhere scope path)
    (hterms : AreIntegers (addends key scope (pathList lists)) terms) :
    sumField lists key scope = .ok ((terms.map Quantity.whole).foldl Total.add .zero).value :=
  sumField_eq_ok_iff.2 ⟨hlists, _, List.forall₂_map_right_iff.2 hterms, rfl⟩

theorem sumField_of_staysInRange {lists key : String} {scope : Value} {terms : List Int}
    (hlists : ∀ path ∈ pathList lists, ¬LeadsElsewhere scope path)
    (hterms : AreIntegers (addends key scope (pathList lists)) terms) (h : StaysInRange terms) :
    ∃ inRange, sumField lists key scope = .ok (.number (.whole terms.sum inRange)) := by
  obtain ⟨inRange, hvalue⟩ := Total.value_of_staysInRange h
  exact ⟨inRange, (sumField_of_areIntegers hlists hterms).trans (congrArg Except.ok hvalue)⟩

/-- Integers add up to their exact total as long as no sum on the way leaves 64 bits; else the
sum is what adding them as doubles gives. If the gains alone and the losses alone stay in the
range, and only then, the total is exact in every order, and so it is over whatever lists the
integers are spread. -/
theorem sumField_of_integers {lists key : String} {scope : Value} {terms : List Int}
    (hlists : ∀ path ∈ pathList lists, ¬LeadsElsewhere scope path)
    (hterms : AreIntegers (addends key scope (pathList lists)) terms) :
    (StaysInRange terms →
      ∃ inRange, sumField lists key scope = .ok (.number (.whole terms.sum inRange))) ∧
    (¬StaysInRange terms → sumField lists key scope =
      .ok (.ofExtended ((terms.map .ofInt).foldl .add (.finite .zero)))) ∧
    ((∀ terms', terms'.Perm terms → StaysInRange terms') ↔
      InSignedRange (gains terms) ∧ InSignedRange (losses terms)) ∧
    (InSignedRange (gains terms) → InSignedRange (losses terms) →
      ∀ lists' key' scope' terms', (∀ path ∈ pathList lists', ¬LeadsElsewhere scope' path) →
        AreIntegers (addends key' scope' (pathList lists')) terms' → terms'.Perm terms →
        ∃ inRange, sumField lists' key' scope' = .ok (.number (.whole terms.sum inRange))) := by
  refine ⟨sumField_of_staysInRange hlists hterms, fun hleaves => ?_, staysInRange_perm_iff, ?_⟩
  · have hother : ∀ terms', terms.map Quantity.whole = terms'.map .whole →
        ¬StaysInRange terms' := by
      intro terms' hsame
      obtain rfl := (List.map_injective_iff.2 fun _ _ => Quantity.whole.inj) hsame
      exact hleaves
    rw [sumField_of_areIntegers hlists hterms, Total.value_of_leaves hother, List.map_map]
    rfl
  · intro hgains hlosses lists' key' scope' terms' hlists' hterms' hperm
    have hstays := staysInRange_perm_iff.2 ⟨hgains, hlosses⟩ terms' hperm
    rw [← hperm.sum_eq]
    exact sumField_of_staysInRange hlists' hterms' hstays

/-- The same fares in two lists, in another order. -/
theorem sumField_of_integers_fares :
    let record (v : Value) : Value := .object [("fare", v)]
    let thirty : Value := .number (.whole 30 (by decide))
    let scope : Value := .object [("legs", .array [record (.string "12"), record thirty])]
    let spread : Value := .object
      [("back", .array [record (.string "12")]), ("out", .array [record thirty])]
    (∀ path ∈ pathList "legs", ¬LeadsElsewhere scope path) ∧
      AreIntegers (addends "fare" scope (pathList "legs")) [12, 30] ∧
      sumField "legs" "fare" scope = .ok (.number (.whole 42 (by decide))) ∧
      (∀ path ∈ pathList "out,back", ¬LeadsElsewhere spread path) ∧
      AreIntegers (addends "fare" spread (pathList "out,back")) [30, 12] ∧
      sumField "out,back" "fare" spread = .ok (.number (.whole 42 (by decide))) := by
  intro record thirty scope spread
  have htwelve : (Value.string "12").CountsAs (.whole 12) := Quantity.ofText?_eq_some_iff.1 rfl
  have hthirty : thirty.CountsAs (.whole 30) := .whole (by decide)
  have hlists : ∀ path ∈ pathList "legs", ¬LeadsElsewhere scope path := by decide +kernel
  have hspread : ∀ path ∈ pathList "out,back", ¬LeadsElsewhere spread path := by decide +kernel
  have hterms : AreIntegers (addends "fare" scope (pathList "legs")) [12, 30] :=
    .cons htwelve (.cons hthirty .nil)
  have hterms' : AreIntegers (addends "fare" spread (pathList "out,back")) [30, 12] :=
    .cons hthirty (.cons htwelve .nil)
  obtain ⟨-, -, -, hexact⟩ := sumField_of_integers hlists hterms
  have hperm : [(30 : Int), 12].Perm [12, 30] := .swap 12 30 []
  have hfits := hexact (by decide) (by decide)
  obtain ⟨_, hsum⟩ := hfits "legs" "fare" scope [12, 30] hlists hterms (.refl _)
  obtain ⟨_, hsum'⟩ := hfits "out,back" "fare" spread [30, 12] hspread hterms' hperm
  exact ⟨hlists, hterms, hsum, hspread, hterms', hsum'⟩

/-- The total fits, but a sum on the way does not: the sum is the double above it. In another
order the total is exact. -/
theorem sumField_leaves_words :
    let record (n : Int) (inRange : InWholeRange n) : Value :=
      .object [("fare", .number (.whole n inRange))]
    let last := record 9223372036854775807 (by decide)
    let one := record 1 (by decide)
    let less := record (-1) (by decide)
    let scope : Value := .object [("legs", .array [last, one, less])]
    let scope' : Value := .object [("legs", .array [last, less, one])]
    (∀ path ∈ pathList "legs", ¬LeadsElsewhere scope path) ∧
      AreIntegers (addends "fare" scope (pathList "legs")) [9223372036854775807, 1, -1] ∧
      InSignedRange [9223372036854775807, 1, -1].sum ∧
      sumField "legs" "fare" scope = .ok (.ofExtended (.ofInt 9223372036854775808)) ∧
      (∀ n inRange, sumField "legs" "fare" scope ≠ .ok (.number (.whole n inRange))) ∧
      sumField "legs" "fare" scope' = .ok (.ofInt 9223372036854775807) := by
  intro record last one less scope scope'
  have hlists : ∀ path ∈ pathList "legs", ¬LeadsElsewhere scope path := by decide +kernel
  have hterms :
      AreIntegers (addends "fare" scope (pathList "legs")) [9223372036854775807, 1, -1] :=
    .cons (.whole (by decide)) (.cons (.whole (by decide)) (.cons (.whole (by decide)) .nil))
  refine ⟨hlists, hterms, by decide, by decide +kernel, fun n inRange h => ?_, by decide +kernel⟩
  rw [sumField_of_areIntegers hlists hterms] at h
  cases Total.value_eq_whole_iff.1 (Except.ok.inj h)

end PayloadMapping.Action
