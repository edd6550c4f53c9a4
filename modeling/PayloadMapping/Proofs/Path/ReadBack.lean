import PayloadMapping.Proofs.Path.InPlace
import PayloadMapping.Proofs.Path.Reading

set_option autoImplicit false

/-!
# Reading what was written

A write that succeeds is read back at its path, and below its path what is read lies in the
written value. Along the paths that diverge from it the same can be read as before. A later write
at the same path does what it would have done without the first.
-/

namespace PayloadMapping.Path

theorem put_entered_of_put {value other tree written : Value} {segments : List String}
    (h : put value segments tree = .ok written) :
    put other segments (entered (some written)) = put other segments written := by
  cases segments with
  | nil => rfl
  | cons s rest => rw [entered_put (List.cons_ne_nil s rest) h]

theorem put_put {value other tree first : Value} {segments : List String}
    (h : put value segments tree = .ok first) :
    ∃ second, put other segments tree = .ok second ∧ put other segments first = .ok second := by
  induction segments generalizing tree first with
  | nil => exact ⟨other, rfl, rfl⟩
  | cons s rest ih =>
    obtain ⟨fields, inner, rfl, hinner, rfl⟩ := put_cons_ok_iff.1 h
    obtain ⟨second, hsecond, hagain⟩ := ih hinner
    refine ⟨.object (Fields.insert s second fields),
      put_cons_ok_iff.2 ⟨fields, second, rfl, hsecond, rfl⟩,
      put_cons_ok_iff.2 ⟨_, second, rfl, ?_, ?_⟩⟩
    · rw [Fields.get?_insert_self, put_entered_of_put hinner, hagain]
    · rw [Fields.insert_insert_self]

/-- A write that succeeds is read back, and disturbs nothing else. Reading at its path gives the
written value, and reading on from there does what it does in the written value, with an error
that differs in the path only. A path that diverges from the written one leads to a value after
the write if and only if it led to that value before. A second write at the path succeeds and
leaves the tree that it leaves without the first. -/
theorem readSegments_overwrite {tree value left : Value} {p : List String}
    (h : overwrite tree value p = (left, .ok ())) :
    readSegments left p = .ok value ∧
    (∀ r, readSegments left (p ++ r) =
      (readSegments value r).mapError fun e => { e with path := join (p ++ r) }) ∧
    (∀ q, Diverge p q → ∀ found,
      readSegments left q = .ok found ↔ readSegments tree q = .ok found) ∧
    ∀ other, ∃ second, overwrite tree other p = (second, .ok ()) ∧
      overwrite left other p = (second, .ok ()) := by
  have hput : put value p tree = .ok left := overwrite_ok_iff.1 h
  have hread : readSegments left p = .ok value := readSegments_ok_iff.2 (walk_put hput)
  refine ⟨hread, readSegments_append hread, ?_, ?_⟩
  · intro q hpq found
    rw [readSegments_ok_iff, readSegments_ok_iff]
    exact walk_put_iff hpq hput
  · intro other
    obtain ⟨second, htree, hleft⟩ := put_put hput
    exact ⟨second, overwrite_of_ok htree, overwrite_of_ok hleft⟩

/-- The write replaces an empty list of taxes by an object; the legs beside it stay. -/
theorem readSegments_overwrite_taxes :
    let legs : Value := .array [.object [("carrier", .string "LH")]]
    let taxes : Value := .array [.object [("code", .string "YQ")]]
    let tree : Value := .object [("fare", .object [("legs", legs), ("tax", .array [])])]
    let left : Value :=
      .object [("fare", .object [("legs", legs), ("tax", .object [("items", taxes)])])]
    let path := ["fare", "tax", "items"]
    let other := ["fare", "legs", "0", "carrier"]
    overwrite tree taxes path = (left, .ok ()) ∧
      readSegments left path = .ok taxes ∧
      readSegments left (path ++ ["0", "name"]) =
        .error ⟨"fare.tax.items.0.name", "name", .missing⟩ ∧
      Diverge path other ∧ readSegments left other = .ok (.string "LH") ∧
      (overwrite left .null path).1 = (overwrite tree .null path).1 := by
  intro legs taxes tree left path other
  have hwritten : overwrite tree taxes path = (left, .ok ()) := rfl
  have hdiverge : Diverge path other := by
    unfold Diverge
    decide
  obtain ⟨hread, hbelow, hbeside, hagain⟩ := readSegments_overwrite hwritten
  obtain ⟨second, htree, hleft⟩ := hagain .null
  refine ⟨hwritten, hread, hbelow ["0", "name"], hdiverge, (hbeside other hdiverge _).2 rfl, ?_⟩
  rw [hleft, htree]

end PayloadMapping.Path
