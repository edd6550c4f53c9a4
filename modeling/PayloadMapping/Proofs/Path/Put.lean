import Mathlib.Data.List.Infix
import Mathlib.Data.List.Perm.Basic
import PayloadMapping.Path.Access
import PayloadMapping.Proofs.Value.Keys

set_option autoImplicit false

/-!
# Writing along paths

What a write does to the tree, level by level. Two paths diverge when neither is a prefix of
the other; writes along diverging paths may change places, and what such a write puts into the
tree is found again at the end of its own path. So `putAll` gives one tree for all orders of
the same writes, with what they wrote and no other paths than theirs.
-/

namespace PayloadMapping.Path

def Diverge (p q : List String) : Prop := ¬ p <+: q ∧ ¬ q <+: p

theorem Diverge.symm {p q : List String} (h : Diverge p q) : Diverge q p := ⟨h.2, h.1⟩

theorem not_diverge_nil_left (q : List String) : ¬ Diverge [] q :=
  fun h => h.1 (List.nil_prefix)

theorem Diverge.ne_nil_left {p q : List String} (h : Diverge p q) : p ≠ [] := by
  rintro rfl
  exact not_diverge_nil_left q h

theorem diverge_cons_iff (s : String) (p q : List String) :
    Diverge (s :: p) (s :: q) ↔ Diverge p q := by
  simp [Diverge, List.cons_prefix_cons]

theorem readSegments_ok_iff {v found : Value} {segments : List String} :
    readSegments v segments = .ok found ↔ walk segments v = .ok found := by
  unfold readSegments
  cases walk segments v with
  | ok u => simp
  | error e => simp

theorem put_cons_object (value : Value) (s : String) (rest : List String)
    (fields : List (String × Value)) :
    put value (s :: rest) (.object fields) =
      match put value rest (entered (Fields.get? s fields)) with
      | .ok inner => .ok (.object (Fields.insert s inner fields))
      | .error e => .error e := rfl

/-- A write along a path with segments steps into an object, and gives one with the first
segment among its keys. -/
theorem put_cons_ok_iff {value tree written : Value} {s : String} {rest : List String} :
    put value (s :: rest) tree = .ok written ↔ ∃ fields inner, tree = .object fields ∧
      put value rest (entered (Fields.get? s fields)) = .ok inner ∧
      written = .object (Fields.insert s inner fields) := by
  constructor
  · intro h
    cases tree with
    | object fields =>
      rw [put_cons_object] at h
      cases hinner : put value rest (entered (Fields.get? s fields)) with
      | error e => simp [hinner] at h
      | ok inner =>
        rw [hinner] at h
        exact ⟨fields, inner, rfl, hinner, (Except.ok.inj h).symm⟩
    | null | bool _ | number _ | string _ | array _ => simp [put] at h
  · rintro ⟨fields, inner, rfl, hinner, rfl⟩
    rw [put_cons_object, hinner]

theorem put_empty (value : Value) (segments : List String) :
    ∃ written, put value segments .empty = .ok written := by
  induction segments with
  | nil => exact ⟨value, rfl⟩
  | cons s rest ih =>
    obtain ⟨inner, hinner⟩ := ih
    exact ⟨_, put_cons_ok_iff.2 ⟨[], inner, rfl, hinner, rfl⟩⟩

/-- What a write leaves at the head of its path is stepped into as it is by the next write. -/
theorem entered_put {value tree written : Value} {segments : List String}
    (hsegments : segments ≠ []) (h : put value segments tree = .ok written) :
    entered (some written) = written := by
  cases segments with
  | nil => exact absurd rfl hsegments
  | cons s rest =>
    obtain ⟨fields, inner, rfl, _, rfl⟩ := put_cons_ok_iff.1 h
    have hne := Fields.insert_ne_nil s inner fields
    simp [entered, Value.isTruthy, hne]

theorem walk_put {value tree written : Value} {segments : List String}
    (h : put value segments tree = .ok written) : walk segments written = .ok value := by
  induction segments generalizing tree written with
  | nil =>
    cases h
    rfl
  | cons s rest ih =>
    obtain ⟨fields, inner, rfl, hinner, rfl⟩ := put_cons_ok_iff.1 h
    rw [walk, step, Fields.get?_insert_self]
    exact ih hinner

/-- Writes along diverging paths that both succeed on a tree succeed one after the other, in
both orders alike. -/
theorem put_comm {v w tree first second : Value} {p q : List String} (hpq : Diverge p q)
    (hp : put v p tree = .ok first) (hq : put w q tree = .ok second) :
    ∃ both, put w q first = .ok both ∧ put v p second = .ok both := by
  induction p generalizing q tree first second with
  | nil => exact absurd hpq (not_diverge_nil_left q)
  | cons s p ih =>
    cases q with
    | nil => exact absurd hpq.symm (not_diverge_nil_left _)
    | cons t q =>
      obtain ⟨fields, inner, rfl, hinner, rfl⟩ := put_cons_ok_iff.1 hp
      obtain ⟨_, inner', hfields, hinner', rfl⟩ := put_cons_ok_iff.1 hq
      cases hfields
      by_cases hst : s = t
      · subst hst
        have hrest := (diverge_cons_iff s p q).1 hpq
        obtain ⟨both, hboth, hboth'⟩ := ih hrest hinner hinner'
        refine ⟨.object (Fields.insert s both fields), ?_, ?_⟩
        · refine put_cons_ok_iff.2 ⟨_, both, rfl, ?_, ?_⟩
          · rw [Fields.get?_insert_self, entered_put hrest.ne_nil_left hinner, hboth]
          · rw [Fields.insert_insert_self]
        · refine put_cons_ok_iff.2 ⟨_, both, rfl, ?_, ?_⟩
          · rw [Fields.get?_insert_self, entered_put hrest.symm.ne_nil_left hinner', hboth']
          · rw [Fields.insert_insert_self]
      · refine ⟨.object (Fields.insert t inner' (Fields.insert s inner fields)), ?_, ?_⟩
        · refine put_cons_ok_iff.2 ⟨_, inner', rfl, ?_, rfl⟩
          rw [Fields.get?_insert_of_ne (Ne.symm hst), hinner']
        · refine put_cons_ok_iff.2 ⟨_, inner, rfl, ?_, ?_⟩
          · rw [Fields.get?_insert_of_ne hst, hinner]
          · rw [Fields.insert_comm (Ne.symm hst)]

theorem walk_empty {segments : List String} {v : Value} (h : walk segments .empty = .ok v) :
    segments = [] := by
  cases segments with
  | nil => rfl
  | cons s rest => simp [walk, step, Value.empty, Fields.get?] at h

theorem slot_of_entered_ne {slot : Option Value} (h : entered slot ≠ .empty) :
    slot = some (entered slot) ∧ (entered slot).isTruthy = true := by
  cases slot with
  | none => exact absurd rfl h
  | some u =>
    by_cases hu : u.isTruthy = true
    · rw [entered, if_pos hu]
      exact ⟨rfl, hu⟩
    · rw [entered, if_neg hu] at h
      exact absurd rfl h

theorem walk_cons_ok_iff {s : String} {rest : List String} {v found : Value} :
    walk (s :: rest) v = .ok found ↔ ∃ u, step s v = .ok u ∧ walk rest u = .ok found := by
  rw [walk]
  cases step s v <;> simp

theorem walk_object_ok_iff {s : String} {rest : List String} {fields : List (String × Value)}
    {found : Value} : walk (s :: rest) (.object fields) = .ok found ↔
      ∃ u, Fields.get? s fields = some u ∧ walk rest u = .ok found := by
  rw [walk, step]
  cases Fields.get? s fields <;> simp

/-- Only what counts as true can be stepped into. -/
theorem isTruthy_of_step {s : String} {u v : Value} (h : step s u = .ok v) :
    u.isTruthy = true := by
  cases u with
  | object fields =>
    cases fields with
    | nil => simp [step, Fields.get?] at h
    | cons field rest => rfl
  | array items =>
    cases items with
    | nil => cases hindex : index? s <;> simp [step, hindex] at h
    | cons item rest => rfl
  | null | bool _ | number _ | string _ => simp [step] at h

theorem walk_entered_iff {slot : Option Value} {segments : List String} {v : Value}
    (hsegments : segments ≠ []) :
    walk segments (entered slot) = .ok v ↔ ∃ u, slot = some u ∧ walk segments u = .ok v := by
  constructor
  · intro h
    have hslot : slot = some (entered slot) :=
      (slot_of_entered_ne fun hempty => hsegments (walk_empty (hempty ▸ h))).1
    exact ⟨entered slot, hslot, h⟩
  · rintro ⟨u, rfl, h⟩
    obtain ⟨s, rest, rfl⟩ := List.exists_cons_of_ne_nil hsegments
    obtain ⟨next, hstep, _⟩ := walk_cons_ok_iff.1 h
    rw [entered, if_pos (isTruthy_of_step hstep)]
    exact h

/-- Along diverging paths a write neither changes nor makes what can be read. -/
theorem walk_put_iff {value tree written found : Value} {p q : List String}
    (hpq : Diverge p q) (hput : put value p tree = .ok written) :
    walk q written = .ok found ↔ walk q tree = .ok found := by
  induction p generalizing q tree written with
  | nil => exact absurd hpq (not_diverge_nil_left q)
  | cons s p ih =>
    cases q with
    | nil => exact absurd hpq.symm (not_diverge_nil_left _)
    | cons t q =>
      obtain ⟨fields, inner, rfl, hinner, rfl⟩ := put_cons_ok_iff.1 hput
      rw [walk_object_ok_iff, walk_object_ok_iff]
      by_cases hst : s = t
      · subst hst
        have hrest := (diverge_cons_iff s p q).1 hpq
        simp only [Fields.get?_insert_self, Option.some.injEq, exists_eq_left']
        exact (ih hrest hinner).trans (walk_entered_iff hrest.symm.ne_nil_left)
      · rw [Fields.get?_insert_of_ne (Ne.symm hst)]

/-! ## Writes one after another -/

def putAll : List (List String × Value) → Value → Except (String × Kind) Value
  | [], tree => .ok tree
  | (p, v) :: rest, tree =>
    match put v p tree with
    | .ok written => putAll rest written
    | .error e => .error e

def Accepts (tree : Value) (p : List String) : Prop := ∀ v, ∃ written, put v p tree = .ok written

theorem accepts_empty (p : List String) : Accepts .empty p := fun v => put_empty v p

theorem Accepts.after_put {v tree written : Value} {p q : List String} (hpq : Diverge p q)
    (hput : put v p tree = .ok written) (h : Accepts tree q) : Accepts written q := by
  intro w
  obtain ⟨second, hsecond⟩ := h w
  obtain ⟨both, hboth, _⟩ := put_comm hpq hput hsecond
  exact ⟨both, hboth⟩

/-- Writes that can be made in a tree, along paths that diverge from each other. -/
structure Independent (tree : Value) (writes : List (List String × Value)) : Prop where
  diverge : writes.Pairwise fun a b => Diverge a.1 b.1
  accepts : ∀ write ∈ writes, Accepts tree write.1

namespace Independent

variable {tree written : Value} {p : List String} {v : Value}
  {writes others : List (List String × Value)}

theorem tail (h : Independent tree ((p, v) :: writes)) (hput : put v p tree = .ok written) :
    Independent written writes := by
  obtain ⟨hfirst, hrest⟩ := List.pairwise_cons.1 h.diverge
  exact ⟨hrest, fun write hwrite =>
    (h.accepts write (List.mem_cons_of_mem _ hwrite)).after_put (hfirst write hwrite) hput⟩

theorem perm (h : Independent tree writes) (hperm : writes.Perm others) :
    Independent tree others := by
  refine ⟨(hperm.pairwise_iff fun hab => Diverge.symm hab).1 h.diverge, fun write hwrite => ?_⟩
  exact h.accepts write (hperm.mem_iff.2 hwrite)

theorem exists_put (h : Independent tree ((p, v) :: writes)) :
    ∃ written, put v p tree = .ok written := h.accepts (p, v) List.mem_cons_self v

end Independent

theorem putAll_cons_ok_iff {tree document v : Value} {p : List String}
    {writes : List (List String × Value)} :
    putAll ((p, v) :: writes) tree = .ok document ↔
      ∃ written, put v p tree = .ok written ∧ putAll writes written = .ok document := by
  rw [putAll]
  cases put v p tree with
  | error e => simp
  | ok written => simp

theorem putAll_cons_of_put {tree written v : Value} {p : List String}
    {writes : List (List String × Value)} (h : put v p tree = .ok written) :
    putAll ((p, v) :: writes) tree = putAll writes written := by
  rw [putAll, h]

theorem exists_putAll {tree : Value} {writes : List (List String × Value)}
    (h : Independent tree writes) : ∃ document, putAll writes tree = .ok document := by
  induction writes generalizing tree with
  | nil => exact ⟨tree, rfl⟩
  | cons write writes ih =>
    obtain ⟨p, v⟩ := write
    obtain ⟨written, hput⟩ := h.exists_put
    rw [putAll_cons_of_put hput]
    exact ih (h.tail hput)

/-- Independent writes give the same tree in every order. -/
theorem putAll_perm {tree : Value} {writes others : List (List String × Value)}
    (hperm : writes.Perm others) (h : Independent tree writes) :
    putAll writes tree = putAll others tree := by
  induction hperm generalizing tree with
  | nil => rfl
  | cons write _ ih =>
    obtain ⟨p, v⟩ := write
    obtain ⟨written, hput⟩ := h.exists_put
    rw [putAll_cons_of_put hput, putAll_cons_of_put hput]
    exact ih (h.tail hput)
  | swap first second rest =>
    obtain ⟨p, v⟩ := first
    obtain ⟨q, w⟩ := second
    have hqp : Diverge q p := (List.pairwise_cons.1 h.diverge).1 (p, v) List.mem_cons_self
    obtain ⟨writtenQ, hq⟩ := h.exists_put
    obtain ⟨writtenP, hp⟩ := h.accepts (p, v) (by simp) v
    obtain ⟨both, hboth, hboth'⟩ := put_comm hqp hq hp
    rw [putAll_cons_of_put hq, putAll_cons_of_put hboth, putAll_cons_of_put hp,
      putAll_cons_of_put hboth']
  | trans hfirst _ ih ih' => exact (ih h).trans (ih' (h.perm hfirst))

theorem putAll_append {tree document : Value} {writes more : List (List String × Value)}
    (h : putAll (writes ++ more) tree = .ok document) :
    ∃ between, putAll writes tree = .ok between ∧ putAll more between = .ok document := by
  induction writes generalizing tree with
  | nil => exact ⟨tree, rfl, h⟩
  | cons write writes ih =>
    obtain ⟨p, v⟩ := write
    obtain ⟨written, hput, hrest⟩ := putAll_cons_ok_iff.1 h
    rw [putAll_cons_of_put hput]
    exact ih hrest

theorem walk_putAll {tree document v : Value} {p : List String}
    {writes : List (List String × Value)} (h : Independent tree writes)
    (hall : putAll writes tree = .ok document) (hmem : (p, v) ∈ writes) :
    walk p document = .ok v := by
  -- any order gives the same tree, so let the write be the last one
  obtain ⟨before, after, rfl⟩ := List.append_of_mem hmem
  have hperm : (before ++ (p, v) :: after).Perm ((before ++ after) ++ [(p, v)]) :=
    List.perm_middle.trans (List.perm_append_singleton _ _).symm
  rw [putAll_perm hperm h] at hall
  obtain ⟨between, _, hlast⟩ := putAll_append hall
  obtain ⟨written, hput, hdocument⟩ := putAll_cons_ok_iff.1 hlast
  cases hdocument
  exact walk_put hput

/-- What can be read after writes could be read before, or its path is one of theirs, or goes
on from one, or leads to one. -/
theorem walk_of_walk_putAll {tree document found : Value} {q : List String}
    {writes : List (List String × Value)} (hall : putAll writes tree = .ok document)
    (hwalk : walk q document = .ok found) :
    (∃ write ∈ writes, q <+: write.1 ∨ write.1 <+: q) ∨ ∃ before, walk q tree = .ok before := by
  induction writes generalizing tree with
  | nil =>
    cases hall
    exact .inr ⟨found, hwalk⟩
  | cons write writes ih =>
    obtain ⟨p, v⟩ := write
    by_cases hpq : Diverge p q
    · obtain ⟨written, hput, hrest⟩ := putAll_cons_ok_iff.1 hall
      rcases ih hrest with ⟨other, hother, hcomparable⟩ | ⟨before, hbefore⟩
      · exact .inl ⟨other, List.mem_cons_of_mem _ hother, hcomparable⟩
      · exact .inr ⟨before, (walk_put_iff hpq hput).1 hbefore⟩
    · refine .inl ⟨(p, v), List.mem_cons_self, ?_⟩
      by_contra hnone
      exact hpq ⟨fun h => hnone (.inr h), fun h => hnone (.inl h)⟩

end PayloadMapping.Path
