import Mathlib.Data.List.Infix
import PayloadMapping.Proofs.Path.Put

set_option autoImplicit false

/-!
# Reading in parts

Reading along two paths one after the other is reading along both together. A read that fails
does so at one step: the segments before it lead to a value, its own segment leads nowhere from
there, and those after it are not looked at. So one prefix of the path is the shortest that
cannot be read; its last segment and the value before that decide what the failure is.
-/

namespace PayloadMapping.Path

theorem walk_append (p q : List String) (source : Value) :
    walk (p ++ q) source = (walk p source).bind (walk q) := by
  induction p generalizing source with
  | nil => rfl
  | cons s rest ih =>
    rw [List.cons_append, walk, walk]
    cases step s source with
    | ok u => exact ih u
    | error o => rfl

theorem walk_append_of_ok {p : List String} {source u : Value} (h : walk p source = .ok u)
    (q : List String) : walk (p ++ q) source = walk q u := by
  rw [walk_append, h]
  rfl

theorem walk_append_of_error {p : List String} {source : Value} {e : String × Obstacle}
    (h : walk p source = .error e) (q : List String) : walk (p ++ q) source = .error e := by
  rw [walk_append, h]
  rfl

theorem walk_append_ok_iff {p q : List String} {source v : Value} :
    walk (p ++ q) source = .ok v ↔ ∃ u, walk p source = .ok u ∧ walk q u = .ok v := by
  cases h : walk p source with
  | ok u => simp [walk_append_of_ok h]
  | error e => simp [walk_append_of_error h]

theorem walk_error_iff {segments : List String} {source : Value} {s : String} {o : Obstacle} :
    walk segments source = .error (s, o) ↔ ∃ before after u,
      segments = before ++ s :: after ∧ walk before source = .ok u ∧ step s u = .error o := by
  constructor
  · intro h
    induction segments generalizing source with
    | nil => cases h
    | cons t rest ih =>
      rw [walk] at h
      cases hstep : step t source with
      | ok next =>
        rw [hstep] at h
        obtain ⟨before, after, u, rfl, hbefore, hfails⟩ := ih h
        refine ⟨t :: before, after, u, rfl, ?_, hfails⟩
        rw [walk, hstep]
        exact hbefore
      | error o' =>
        rw [hstep] at h
        obtain ⟨rfl, rfl⟩ := Prod.mk.inj (Except.error.inj h)
        exact ⟨[], rest, source, rfl, rfl, hstep⟩
  · rintro ⟨before, after, u, rfl, hbefore, hfails⟩
    rw [walk_append_of_ok hbefore, walk, hfails]

theorem readSegments_error_iff {source : Value} {segments : List String} {e : PathError} :
    readSegments source segments = .error e ↔
      e.path = join segments ∧ walk segments source = .error (e.segment, e.obstacle) := by
  obtain ⟨path, s, o⟩ := e
  unfold readSegments
  cases walk segments source with
  | ok u => simp
  | error found =>
    obtain ⟨s', o'⟩ := found
    simp [eq_comm]

/-- Reading on from a value that can be read differs from reading in that value by the path that
an error names. -/
theorem readSegments_append {p : List String} {source u : Value}
    (h : readSegments source p = .ok u) (q : List String) :
    readSegments source (p ++ q) =
      (readSegments u q).mapError fun e => { e with path := join (p ++ q) } := by
  unfold readSegments
  rw [walk_append_of_ok (readSegments_ok_iff.1 h)]
  cases walk q u <;> rfl

/-! ## The shortest prefix that cannot be read -/

def Unreadable (source : Value) (segments : List String) : Prop :=
  ∃ e, readSegments source segments = .error e

theorem unreadable_iff {source : Value} {segments : List String} :
    Unreadable source segments ↔ ∃ e, walk segments source = .error e := by
  constructor
  · rintro ⟨e, h⟩
    exact ⟨_, (readSegments_error_iff.1 h).2⟩
  · rintro ⟨⟨s, o⟩, h⟩
    exact ⟨⟨join segments, s, o⟩, readSegments_error_iff.2 ⟨rfl, h⟩⟩

structure ShortestUnreadable (source : Value) (path failing : List String) : Prop where
  leads : failing <+: path
  unreadable : Unreadable source failing
  shortest : ∀ other, other <+: path → Unreadable source other → failing.length ≤ other.length

namespace ShortestUnreadable

variable {source : Value} {path failing : List String}

theorem unique (h : ShortestUnreadable source path failing) {other : List String}
    (hother : ShortestUnreadable source path other) : other = failing := by
  have hle : failing.length ≤ other.length := h.shortest _ hother.leads hother.unreadable
  have hge : other.length ≤ failing.length := hother.shortest _ h.leads h.unreadable
  have hinside : other <+: failing := List.prefix_of_prefix_length_le hother.leads h.leads hge
  exact hinside.eq_of_length (le_antisymm hge hle)

theorem of_step {before after : List String} {s : String} {u : Value} {o : Obstacle}
    (hbefore : walk before source = .ok u) (hfails : step s u = .error o) :
    ShortestUnreadable source (before ++ s :: after) (before ++ [s]) := by
  refine ⟨⟨after, by simp⟩, unreadable_iff.2 ⟨(s, o), ?_⟩, ?_⟩
  · exact walk_error_iff.2 ⟨before, [], u, rfl, hbefore, hfails⟩
  · intro other hother hunreadable
    by_contra hshorter
    rw [List.length_append, List.length_singleton] at hshorter
    -- a shorter one leads at most as far as the segments that can be read
    have hinside : other <+: before :=
      List.prefix_of_prefix_length_le hother (List.prefix_append _ _) (by omega)
    obtain ⟨more, rfl⟩ := hinside
    obtain ⟨e, he⟩ := unreadable_iff.1 hunreadable
    rw [walk_append_of_error he] at hbefore
    cases hbefore

end ShortestUnreadable

/-- Reading is compositional, and says where it fails. What can be read along two paths together
is what can be read along the second where the first leads. When a path cannot be read, one of
its prefixes is the shortest that cannot; the error names the whole path and the last segment of
that prefix, the obstacle is the one that this segment meets at the value before it, and every
path that goes on from the prefix fails at the same segment with the same obstacle. -/
theorem readSegments_in_parts (source : Value) :
    (∀ p q v, readSegments source (p ++ q) = .ok v ↔
      ∃ u, readSegments source p = .ok u ∧ readSegments u q = .ok v) ∧
    ∀ path e, readSegments source path = .error e →
      (∃! failing, ShortestUnreadable source path failing) ∧
      ∀ failing, ShortestUnreadable source path failing →
        ∃ before u, failing = before ++ [e.segment] ∧ e.path = join path ∧
          readSegments source before = .ok u ∧ step e.segment u = .error e.obstacle ∧
          ∀ more, readSegments source (failing ++ more) =
            .error ⟨join (failing ++ more), e.segment, e.obstacle⟩ := by
  refine ⟨fun p q v => ?_, fun path e h => ?_⟩
  · simp only [readSegments_ok_iff, walk_append_ok_iff]
  · obtain ⟨hpath, hwalk⟩ := readSegments_error_iff.1 h
    obtain ⟨before, after, u, hsplit, hbefore, hfails⟩ := walk_error_iff.1 hwalk
    have hshortest : ShortestUnreadable source path (before ++ [e.segment]) :=
      hsplit ▸ ShortestUnreadable.of_step hbefore hfails
    refine ⟨⟨_, hshortest, fun other hother => hshortest.unique hother⟩, fun failing hfailing => ?_⟩
    obtain rfl := hshortest.unique hfailing
    have hread : walk (before ++ [e.segment]) source = .error (e.segment, e.obstacle) :=
      walk_error_iff.2 ⟨before, [], u, rfl, hbefore, hfails⟩
    refine ⟨before, u, rfl, hpath, readSegments_ok_iff.2 hbefore, hfails, fun more => ?_⟩
    exact readSegments_error_iff.2 ⟨rfl, walk_append_of_error hread more⟩

/-- A fare that is a text has no amount, and nothing below one. -/
theorem readSegments_in_parts_text_fare :
    let source : Value := .object [("legs", .array [.object [("fare", .string "free")]])]
    let path := ["legs", "0", "fare", "amount", "value"]
    let failing := ["legs", "0", "fare", "amount"]
    readSegments source path =
        .error ⟨"legs.0.fare.amount.value", "amount", .mismatch .string⟩ ∧
      ShortestUnreadable source path failing ∧
      (∃ before u, failing = before ++ ["amount"] ∧ readSegments source before = .ok u ∧
        step "amount" u = .error (.mismatch .string)) ∧
      readSegments source (failing ++ ["net", "of"]) =
        .error ⟨"legs.0.fare.amount.net.of", "amount", .mismatch .string⟩ := by
  intro source path failing
  have hbefore : walk ["legs", "0", "fare"] source = .ok (.string "free") := rfl
  have hread : readSegments source path =
      .error ⟨"legs.0.fare.amount.value", "amount", .mismatch .string⟩ := rfl
  have hshortest : ShortestUnreadable source path failing :=
    ShortestUnreadable.of_step hbefore rfl
  obtain ⟨before, u, hsplit, _, hvalue, hfails, hmore⟩ :=
    ((readSegments_in_parts source).2 path _ hread).2 failing hshortest
  exact ⟨hread, hshortest, ⟨before, u, hsplit, hvalue, hfails⟩, hmore ["net", "of"]⟩

end PayloadMapping.Path
