import PayloadMapping.Proofs.Path.Put

set_option autoImplicit false

/-!
# Writing in place

A write in place makes places before it knows that it will succeed. Once it has made one, nothing
is in its way any more; so a write that fails has left everything as it was, and `overwrite` does
what `write` does. Writes along diverging paths may change places, also when they fail: the tree
in the end is the same, and each of them ends as it would have ended alone.
-/

namespace PayloadMapping

theorem Fields.insert_of_get? {α : Type} {key : String} {value : α} {fields : Fields α}
    (h : get? key fields = some value) : insert key value fields = fields := by
  have hreplace : ∀ {fields : Fields α}, get? key fields = some value →
      replace key value fields = fields := by
    intro fields
    induction fields with
    | nil => intro h; cases h
    | cons field rest ih =>
      obtain ⟨k, v⟩ := field
      intro h
      by_cases hk : k = key
      · simp_all [get?, replace]
      · simp_all [get?, replace]
  rw [insert_of_contains (by simp [contains, h]), hreplace h]

namespace Path

/-- What stops a write on its way was there before: a new object is in no write's way. -/
theorem slot_of_put_error {value : Value} {slot : Option Value} {rest : List String}
    {e : String × Kind} (h : put value rest (entered slot) = .error e) :
    slot = some (entered slot) := by
  refine (slot_of_entered_ne fun hempty => ?_).1
  obtain ⟨written, hwritten⟩ := put_empty value rest
  rw [hempty, hwritten] at h
  cases h

theorem putInPlace_of_ok {value tree written : Value} {segments : List String}
    (h : put value segments tree = .ok written) :
    putInPlace value segments tree = (written, .ok ()) := by
  induction segments generalizing tree written with
  | nil =>
    obtain rfl := Except.ok.inj h
    rfl
  | cons s rest ih =>
    obtain ⟨fields, inner, rfl, hinner, rfl⟩ := put_cons_ok_iff.1 h
    simp only [putInPlace, ih hinner]

theorem put_cons_error_iff {value tree : Value} {s : String} {rest : List String}
    {e : String × Kind} : put value (s :: rest) tree = .error e ↔
      (∃ fields, tree = .object fields ∧
        put value rest (entered (Fields.get? s fields)) = .error e) ∨
      ((∀ fields, tree ≠ .object fields) ∧ e = (s, tree.kind)) := by
  cases tree with
  | object fields =>
    rw [put_cons_object]
    cases hinner : put value rest (entered (Fields.get? s fields)) <;> simp [hinner]
  | null | bool _ | number _ | string _ | array _ => simp [put, eq_comm]

/-- A failed write has changed nothing. -/
theorem putInPlace_of_error {value tree : Value} {segments : List String} {e : String × Kind}
    (h : put value segments tree = .error e) :
    putInPlace value segments tree = (tree, .error e) := by
  induction segments generalizing tree with
  | nil => cases h
  | cons s rest ih =>
    obtain ⟨fields, rfl, hinner⟩ | ⟨hother, rfl⟩ := put_cons_error_iff.1 h
    · have hslot := slot_of_put_error hinner
      simp only [putInPlace, ih hinner]
      rw [Fields.insert_of_get? hslot]
    · cases tree with
      | object fields => exact absurd rfl (hother fields)
      | null | bool _ | number _ | string _ | array _ => rfl

theorem overwrite_of_ok {tree value written : Value} {segments : List String}
    (h : put value segments tree = .ok written) :
    overwrite tree value segments = (written, .ok ()) := by
  rw [overwrite, putInPlace_of_ok h]
  rfl

theorem overwrite_of_error {tree value : Value} {segments : List String} {e : String × Kind}
    (h : put value segments tree = .error e) :
    overwrite tree value segments = (tree, .error ⟨join segments, e.1, .mismatch e.2⟩) := by
  rw [overwrite, putInPlace_of_error h]
  rfl

theorem overwrite_ok_iff {tree value left : Value} {segments : List String} :
    overwrite tree value segments = (left, .ok ()) ↔ put value segments tree = .ok left := by
  cases h : put value segments tree with
  | ok written => simp [overwrite_of_ok h]
  | error e => simp [overwrite_of_error h]

theorem overwrite_error_iff {tree value : Value} {segments : List String} {e : PathError} :
    (overwrite tree value segments).2 = .error e ↔ ∃ found,
      put value segments tree = .error found ∧
        e = ⟨join segments, found.1, .mismatch found.2⟩ := by
  cases h : put value segments tree with
  | ok written => simp [overwrite_of_ok h]
  | error found => simp [overwrite_of_error h, eq_comm]

/-- What is left in place is what `write` gives, or the tree as it was where `write` fails. -/
theorem overwrite_segments (tree value : Value) (path : Path) :
    overwrite tree value path.segments =
      (((write tree value path).toOption).getD tree, (write tree value path).map fun _ => ()) := by
  unfold write
  cases h : put value path.segments tree with
  | ok written => exact overwrite_of_ok h
  | error e => exact overwrite_of_error h

/-! ## Writes along diverging paths -/

/-- A write that fails does so as well after a write along a diverging path, and for the same
reason: what is in its way does not lie on the other path. -/
theorem put_error_of_put {v w tree first : Value} {p q : List String} {e : String × Kind}
    (hpq : Diverge p q) (hp : put v p tree = .ok first) (hq : put w q tree = .error e) :
    put w q first = .error e := by
  induction p generalizing q tree first with
  | nil => exact absurd hpq (not_diverge_nil_left q)
  | cons s p ih =>
    cases q with
    | nil => exact absurd hpq.symm (not_diverge_nil_left _)
    | cons t q =>
      obtain ⟨fields, inner, rfl, hinner, rfl⟩ := put_cons_ok_iff.1 hp
      obtain ⟨_, hfields, hfails⟩ | ⟨hother, _⟩ := put_cons_error_iff.1 hq
      · cases hfields
        refine put_cons_error_iff.2 (.inl ⟨_, rfl, ?_⟩)
        by_cases hst : s = t
        · subst hst
          have hrest := (diverge_cons_iff s p q).1 hpq
          rw [Fields.get?_insert_self, entered_put hrest.ne_nil_left hinner]
          exact ih hrest hinner hfails
        · rw [Fields.get?_insert_of_ne (Ne.symm hst)]
          exact hfails
      · exact absurd rfl (hother fields)

theorem putInPlace_comm {p q : List String} (h : Diverge p q) (tree v w : Value) :
    let first := putInPlace v p tree
    let second := putInPlace w q tree
    (putInPlace w q first.1).1 = (putInPlace v p second.1).1 ∧
      (putInPlace v p second.1).2 = first.2 ∧ (putInPlace w q first.1).2 = second.2 := by
  cases hp : put v p tree with
  | ok first =>
    cases hq : put w q tree with
    | ok second =>
      obtain ⟨both, hboth, hboth'⟩ := put_comm h hp hq
      simp [putInPlace_of_ok hp, putInPlace_of_ok hq, putInPlace_of_ok hboth,
        putInPlace_of_ok hboth']
    | error e =>
      have hq' := put_error_of_put h hp hq
      simp [putInPlace_of_ok hp, putInPlace_of_error hq, putInPlace_of_error hq']
  | error e =>
    cases hq : put w q tree with
    | ok second =>
      have hp' := put_error_of_put h.symm hq hp
      simp [putInPlace_of_error hp, putInPlace_of_ok hq, putInPlace_of_error hp']
    | error e' => simp [putInPlace_of_error hp, putInPlace_of_error hq]

/-- Writes along two paths of which neither is a prefix of the other may change places: they leave
the same tree in both orders, and each ends alike in both, whether it succeeds or fails. -/
theorem overwrite_comm_of_diverge {p q : List String} (h : Diverge p q) (tree v w : Value) :
    let first := overwrite tree v p
    let second := overwrite tree w q
    let secondAfterFirst := overwrite first.1 w q
    let firstAfterSecond := overwrite second.1 v p
    secondAfterFirst.1 = firstAfterSecond.1 ∧ firstAfterSecond.2 = first.2 ∧
      secondAfterFirst.2 = second.2 := by
  intro first second secondAfterFirst firstAfterSecond
  obtain ⟨htree, hfirst, hsecond⟩ := putInPlace_comm h tree v w
  refine ⟨htree, ?_, ?_⟩
  · simp only [first, firstAfterSecond, second, overwrite, hfirst]
  · simp only [secondAfterFirst, second, first, overwrite, hsecond]

/-- One of the writes stops at a text, the other replaces a zero; the order does not count. -/
theorem overwrite_comm_of_diverge_fares :
    let tree : Value := .object [("fare", .object
      [("base", .string "net"), ("tax", .number (.whole 0 (by decide)))])]
    let first := overwrite tree .null ["fare", "base", "amount"]
    let second := overwrite tree (.bool true) ["fare", "tax", "paid"]
    Diverge ["fare", "base", "amount"] ["fare", "tax", "paid"] ∧
      first.2 = .error ⟨"fare.base.amount", "amount", .mismatch .string⟩ ∧
      (overwrite second.1 .null ["fare", "base", "amount"]).2 = first.2 ∧
      (overwrite first.1 (.bool true) ["fare", "tax", "paid"]).1 =
        .object [("fare", .object
          [("base", .string "net"), ("tax", .object [("paid", .bool true)])])] := by
  intro tree first second
  have hdiverge : Diverge ["fare", "base", "amount"] ["fare", "tax", "paid"] := by
    unfold Diverge
    decide
  obtain ⟨hsame, hfirst, _⟩ := overwrite_comm_of_diverge hdiverge tree .null (.bool true)
  refine ⟨hdiverge, rfl, hfirst, hsame.trans ?_⟩
  rfl

end Path

end PayloadMapping
