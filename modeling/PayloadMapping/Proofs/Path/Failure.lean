import PayloadMapping.Proofs.Path.InPlace

set_option autoImplicit false

/-!
# When a write fails

A write follows its segments through objects. It has to stop at the first node that is no object,
if this is the tree itself or counts as true; a node that is missing or does not count as true is
no obstacle, for the write puts a new object there. It fails nowhere else, its error names that
node, and it leaves the tree as it was.
-/

namespace PayloadMapping

theorem Value.kind_ne_object_iff {v : Value} : v.kind ≠ .object ↔ ∀ fields, v ≠ .object fields := by
  cases v <;> simp [Value.kind]

theorem Value.field?_eq_some_iff {v u : Value} {s : String} :
    v.field? s = some u ↔ ∃ fields, v = .object fields ∧ Fields.get? s fields = some u := by
  cases v <;> simp [Value.field?]

namespace Path

def follow : List String → Value → Option Value
  | [], v => some v
  | s :: rest, v => (v.field? s).bind (follow rest)

/-- A write along the segments has to stop at a node: those before `s` lead to it through objects,
and the write would step into it with `s`, but it is no object. Below the tree itself it has to
count as true; else the write replaces it. -/
structure StopsAt (tree : Value) (segments before : List String) (s : String) (node : Value) :
    Prop where
  follows : follow before tree = some node
  steps : before ++ [s] <+: segments
  notObject : node.kind ≠ .object
  stands : before = [] ∨ node.isTruthy = true

theorem follow_cons_iff {s : String} {rest : List String} {v node : Value} :
    follow (s :: rest) v = some node ↔ ∃ fields u, v = .object fields ∧
      Fields.get? s fields = some u ∧ follow rest u = some node := by
  rw [follow, Option.bind_eq_some_iff]
  constructor
  · rintro ⟨u, hu, hrest⟩
    obtain ⟨fields, rfl, hget⟩ := Value.field?_eq_some_iff.1 hu
    exact ⟨fields, u, rfl, hget, hrest⟩
  · rintro ⟨fields, u, rfl, hget, hrest⟩
    exact ⟨u, Value.field?_eq_some_iff.2 ⟨fields, rfl, hget⟩, hrest⟩

theorem entered_of_follow {segments : List String} {u node : Value}
    (h : follow segments u = some node) (htruthy : node.isTruthy = true) :
    entered (some u) = u := by
  have hu : u.isTruthy = true := by
    cases segments with
    | nil =>
      obtain rfl := Option.some.inj h
      exact htruthy
    | cons s rest =>
      obtain ⟨fields, w, rfl, hget, _⟩ := follow_cons_iff.1 h
      have hne : fields ≠ [] := by
        rintro rfl
        cases hget
      simp [Value.isTruthy, hne]
  rw [entered, if_pos hu]

theorem not_stopsAt_empty {segments before : List String} {s : String} {node : Value} :
    ¬ StopsAt .empty segments before s node := by
  intro h
  cases before with
  | nil =>
    obtain rfl := Option.some.inj h.follows
    exact h.notObject rfl
  | cons t rest =>
    obtain ⟨fields, u, hfields, hget, _⟩ := follow_cons_iff.1 h.follows
    cases hfields
    cases hget

/-- A write stops at the tree itself, or in what it steps into with its first segment. -/
theorem stopsAt_cons_iff {tree node : Value} {t s : String} {rest before : List String} :
    StopsAt tree (t :: rest) before s node ↔
      (before = [] ∧ s = t ∧ node = tree ∧ tree.kind ≠ .object) ∨
      ∃ fields deeper, tree = .object fields ∧ before = t :: deeper ∧
        StopsAt (entered (Fields.get? t fields)) rest deeper s node := by
  constructor
  · intro h
    cases before with
    | nil =>
      obtain rfl := Option.some.inj h.follows
      obtain ⟨rfl, _⟩ := List.cons_prefix_cons.1 h.steps
      exact .inl ⟨rfl, rfl, rfl, h.notObject⟩
    | cons b deeper =>
      obtain ⟨rfl, hsteps⟩ := List.cons_prefix_cons.1 h.steps
      obtain ⟨fields, u, rfl, hget, hfollow⟩ := follow_cons_iff.1 h.follows
      have htruthy : node.isTruthy = true := h.stands.resolve_left (List.cons_ne_nil _ _)
      refine .inr ⟨fields, deeper, rfl, rfl, ?_, hsteps, h.notObject, .inr htruthy⟩
      rw [hget, entered_of_follow hfollow htruthy]
      exact hfollow
  · rintro (⟨rfl, rfl, rfl, hobject⟩ | ⟨fields, deeper, rfl, rfl, h⟩)
    · exact ⟨rfl, List.cons_prefix_cons.2 ⟨rfl, List.nil_prefix⟩, hobject, .inl rfl⟩
    · have hstops : entered (Fields.get? t fields) ≠ .empty := fun hempty =>
        not_stopsAt_empty (hempty ▸ h)
      obtain ⟨hslot, hthere⟩ := slot_of_entered_ne hstops
      have htruthy : node.isTruthy = true := by
        rcases h.stands with rfl | htruthy
        · -- the node is what the first segment leads to, and is not replaced
          obtain rfl := Option.some.inj h.follows
          exact hthere
        · exact htruthy
      exact ⟨follow_cons_iff.2 ⟨fields, _, rfl, hslot, h.follows⟩,
        List.cons_prefix_cons.2 ⟨rfl, h.steps⟩, h.notObject, .inr htruthy⟩

theorem put_error_iff {value tree : Value} {segments : List String} {e : String × Kind} :
    put value segments tree = .error e ↔
      ∃ before s node, StopsAt tree segments before s node ∧ e = (s, node.kind) := by
  induction segments generalizing tree with
  | nil =>
    constructor
    · intro h
      cases h
    · rintro ⟨before, s, node, hstops, _⟩
      have hnone := List.prefix_nil.1 hstops.steps
      simp at hnone
  | cons t rest ih =>
    rw [put_cons_error_iff]
    constructor
    · rintro (⟨fields, rfl, hinner⟩ | ⟨hother, rfl⟩)
      · obtain ⟨before, s, node, hstops, rfl⟩ := ih.1 hinner
        exact ⟨t :: before, s, node,
          stopsAt_cons_iff.2 (.inr ⟨fields, before, rfl, rfl, hstops⟩), rfl⟩
      · have hobject : tree.kind ≠ .object := Value.kind_ne_object_iff.2 hother
        exact ⟨[], t, tree, stopsAt_cons_iff.2 (.inl ⟨rfl, rfl, rfl, hobject⟩), rfl⟩
    · rintro ⟨before, s, node, hstops, rfl⟩
      rcases stopsAt_cons_iff.1 hstops with
        ⟨_, rfl, rfl, hobject⟩ | ⟨fields, deeper, rfl, _, hdeeper⟩
      · exact .inr ⟨Value.kind_ne_object_iff.1 hobject, rfl⟩
      · exact .inl ⟨fields, rfl, ih.2 ⟨deeper, s, node, hdeeper, rfl⟩⟩

/-- A write fails exactly where something stops it, with an error that names the whole path, the
segment behind the node that stops it and the kind of that node; and a write that fails leaves
the tree as it was. -/
theorem overwrite_error_iff_stopsAt (tree value : Value) (segments : List String) :
    (∀ e, (overwrite tree value segments).2 = .error e ↔
      ∃ before s node, StopsAt tree segments before s node ∧
        e = ⟨join segments, s, .mismatch node.kind⟩) ∧
    ((∃ e, (overwrite tree value segments).2 = .error e) →
      (overwrite tree value segments).1 = tree) := by
  refine ⟨fun e => ?_, ?_⟩
  · rw [overwrite_error_iff]
    constructor
    · rintro ⟨found, hfound, rfl⟩
      obtain ⟨before, s, node, hstops, rfl⟩ := put_error_iff.1 hfound
      exact ⟨before, s, node, hstops, rfl⟩
    · rintro ⟨before, s, node, hstops, rfl⟩
      exact ⟨_, put_error_iff.2 ⟨before, s, node, hstops, rfl⟩, rfl⟩
  · rintro ⟨e, he⟩
    obtain ⟨found, hfound, _⟩ := overwrite_error_iff.1 he
    rw [overwrite_of_error hfound]

/-- A base fare that is a text has no amount to write; what the write would have made below it is
not there afterwards. -/
theorem overwrite_error_iff_stopsAt_text_fare :
    let tree : Value := .object [("fare", .object [("base", .string "net"), ("tax", .null)])]
    let segments := ["fare", "base", "amount", "value"]
    StopsAt tree segments ["fare", "base"] "amount" (.string "net") ∧
      overwrite tree (.bool true) segments =
        (tree, .error ⟨"fare.base.amount.value", "amount", .mismatch .string⟩) := by
  intro tree segments
  have hstops : StopsAt tree segments ["fare", "base"] "amount" (.string "net") :=
    ⟨rfl, ⟨["value"], rfl⟩, by decide, .inr rfl⟩
  obtain ⟨hfails, hleft⟩ := overwrite_error_iff_stopsAt tree (.bool true) segments
  have hfailed := (hfails _).2 ⟨_, _, _, hstops, rfl⟩
  exact ⟨hstops, Prod.ext (hleft ⟨_, hfailed⟩) hfailed⟩

end Path

end PayloadMapping
