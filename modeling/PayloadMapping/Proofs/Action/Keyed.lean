import Mathlib.Data.List.Dedup
import PayloadMapping.Action.Apply
import PayloadMapping.Proofs.Path.Failure
import PayloadMapping.Proofs.Value.Keys

set_option autoImplicit false

/-!
# Records by key

Records are put under the texts of one of their fields, and a later record replaces an earlier one
with the same text. So the object holds, for every text that occurs, the last record with it.
Records without a text are passed over, and the records of two lists one after the other are those
of the first with those of the second put over them.
-/

namespace PayloadMapping.Action

/-- The record is an object with something else than null under the key, which has the text. -/
def IsKeyedAs (key : String) (record : Value) (text : String) : Prop :=
  ∃ fields id, record = .object fields ∧ Fields.get? key fields = some id ∧ id ≠ .null ∧
    id.render = text

def keyText? (key : String) (record : Value) : Option String :=
  ((record.field? key).filter (· ≠ .null)).map Value.render

variable {key : String}

theorem keyText?_eq_some_iff {record : Value} {text : String} :
    keyText? key record = some text ↔ IsKeyedAs key record text := by
  simp only [keyText?, IsKeyedAs, Option.map_eq_some_iff, Option.filter_eq_some_iff,
    Value.field?_eq_some_iff, decide_eq_true_eq]
  constructor
  · rintro ⟨id, ⟨⟨fields, rfl, hget⟩, hid⟩, rfl⟩
    exact ⟨fields, id, rfl, hget, hid, rfl⟩
  · rintro ⟨fields, id, rfl, hget, hid, rfl⟩
    exact ⟨id, ⟨⟨fields, rfl, hget⟩, hid⟩, rfl⟩

theorem keyText?_isSome_iff {record : Value} :
    (keyText? key record).isSome = true ↔ ∃ text, IsKeyedAs key record text := by
  simp only [Option.isSome_iff_exists, keyText?_eq_some_iff]

theorem keyed_concat (records : List Value) (record : Value) :
    keyed key (records ++ [record]) = (keyText? key record).elim (keyed key records)
      fun text => (keyed key records).insert text record := by
  unfold keyed keyText?
  rw [List.foldl_append, List.foldl_cons, List.foldl_nil]
  cases record.field? key with
  | none => rfl
  | some id => cases id <;> rfl

theorem keyed_inOrder (records : List Value) : Fields.InOrder (keyed key records) := by
  induction records using List.reverseRecOn with
  | nil => exact .nil
  | append_singleton records record ih =>
    rw [keyed_concat]
    cases keyText? key record with
    | none => exact ih
    | some text => exact ih.insert text record

theorem get?_keyed (text : String) (records : List Value) :
    Fields.get? text (keyed key records) =
      records.reverse.find? fun record => keyText? key record = some text := by
  induction records using List.reverseRecOn with
  | nil => rfl
  | append_singleton records record ih =>
    rw [keyed_concat, List.reverse_concat, List.find?_cons]
    cases hkey : keyText? key record with
    | none => simpa using ih
    | some other =>
      by_cases hother : other = text
      · subst hother
        simp
      · simpa [hother, Fields.get?_insert_of_ne (Ne.symm hother)] using ih

theorem get?_keyed_eq_some_iff {text : String} {records : List Value} {record : Value} :
    Fields.get? text (keyed key records) = some record ↔ ∃ before after,
      records = before ++ record :: after ∧ IsKeyedAs key record text ∧
        ∀ later ∈ after, ¬IsKeyedAs key later text := by
  simp only [get?_keyed, List.find?_eq_some_iff_append, decide_eq_true_eq, keyText?_eq_some_iff,
    Bool.not_eq_eq_eq_not, Bool.not_true, decide_eq_false_iff_not]
  constructor
  · rintro ⟨hkeyed, after, before, hsplit, hafter⟩
    refine ⟨before.reverse, after.reverse, ?_, hkeyed, fun later hlater => ?_⟩
    · rw [← List.reverse_reverse records, hsplit]
      simp
    · exact hafter later (List.mem_reverse.1 hlater)
  · rintro ⟨before, after, rfl, hkeyed, hafter⟩
    refine ⟨hkeyed, after.reverse, before.reverse, by simp, fun later hlater => ?_⟩
    exact hafter later (List.mem_reverse.1 hlater)

theorem mem_keys_keyed_iff {text : String} {records : List Value} :
    text ∈ Fields.keys (keyed key records) ↔ ∃ record ∈ records, IsKeyedAs key record text := by
  rw [← Fields.contains_iff_mem_keys, Fields.contains, get?_keyed, List.find?_isSome]
  simp only [List.mem_reverse, decide_eq_true_eq, keyText?_eq_some_iff]

theorem keyed_append (records more : List Value) :
    keyed key (records ++ more) = (keyed key records).merge (keyed key more) := by
  induction more using List.reverseRecOn with
  | nil => rw [List.append_nil]; rfl
  | append_singleton more record ih =>
    rw [← List.append_assoc, keyed_concat, keyed_concat, ih]
    cases keyText? key record with
    | none => rfl
    | some text => exact (Fields.merge_insert (keyed_inOrder more).nodup text record _).symm

theorem length_keyed (records : List Value) :
    (keyed key records).length = (records.filterMap (keyText? key)).dedup.length := by
  have hkeys : (Fields.keys (keyed key records)).Perm
      (records.filterMap (keyText? key)).dedup := by
    rw [List.perm_ext_iff_of_nodup (keyed_inOrder records).nodup (List.nodup_dedup _)]
    intro text
    simp only [mem_keys_keyed_iff, List.mem_dedup, List.mem_filterMap, keyText?_eq_some_iff]
  rw [← hkeys.length_eq, Fields.keys, List.length_map]

theorem length_keyed_eq_iff {records : List Value} :
    (keyed key records).length = records.length ↔
      (∀ record ∈ records, ∃ text, IsKeyedAs key record text) ∧
        records.Pairwise fun record later =>
          ∀ text, IsKeyedAs key record text → ¬IsKeyedAs key later text := by
  have hall : (records.filterMap (keyText? key)).length = records.length ↔
      ∀ record ∈ records, ∃ text, IsKeyedAs key record text := by
    simp only [List.filterMap_length_eq_length, keyText?_isSome_iff]
  have hapart : (records.filterMap (keyText? key)).Nodup ↔ records.Pairwise fun record later =>
      ∀ text, IsKeyedAs key record text → ¬IsKeyedAs key later text := by
    rw [List.Nodup, List.pairwise_filterMap]
    simp only [keyText?_eq_some_iff]
    refine List.Pairwise.iff fun {record later} => ⟨fun h text hrecord hlater => ?_, ?_⟩
    · exact h text hrecord text hlater rfl
    · rintro h text hrecord _ hlater rfl
      exact h text hrecord hlater
  have htexts := List.length_filterMap_le (keyText? key) records
  have hdedup := List.dedup_sublist (records.filterMap (keyText? key))
  rw [← hall, ← hapart, length_keyed]
  constructor
  · intro h
    have hle := hdedup.length_le
    have hsame := hdedup.eq_of_length (by omega)
    exact ⟨by omega, hsame ▸ List.nodup_dedup _⟩
  · rintro ⟨hlength, hnodup⟩
    rw [hnodup.dedup, hlength]

/-- A list of records becomes the object that holds, under each text of their keys, the last record
with it, and nothing else. -/
theorem keyRecords_keeps_last (key : String) :
    (∀ records, ∃ fields, keyRecords key (.array records) = .ok (.object fields) ∧
      Fields.InOrder fields ∧
      (∀ text, text ∈ Fields.keys fields ↔ ∃ record ∈ records, IsKeyedAs key record text) ∧
      (∀ text record, Fields.get? text fields = some record ↔ ∃ before after,
        records = before ++ record :: after ∧ IsKeyedAs key record text ∧
          ∀ later ∈ after, ¬IsKeyedAs key later text) ∧
      (fields.length = records.length ↔
        (∀ record ∈ records, ∃ text, IsKeyedAs key record text) ∧
          records.Pairwise fun record later =>
            ∀ text, IsKeyedAs key record text → ¬IsKeyedAs key later text)) ∧
    (∀ records more, ∃ fields updates,
      keyRecords key (.array records) = .ok (.object fields) ∧
      keyRecords key (.array more) = .ok (.object updates) ∧
      keyRecords key (.array (records ++ more)) = .ok (.object (Fields.merge fields updates))) ∧
    (∀ before record after, (∀ text, ¬IsKeyedAs key record text) →
      keyRecords key (.array (before ++ record :: after)) =
        keyRecords key (.array (before ++ after))) := by
  refine ⟨fun records => ?_, fun records more => ?_, fun before record after hskipped => ?_⟩
  · exact ⟨keyed key records, rfl, keyed_inOrder records, fun text => mem_keys_keyed_iff,
      fun text record => get?_keyed_eq_some_iff, length_keyed_eq_iff⟩
  · refine ⟨keyed key records, keyed key more, rfl, rfl, ?_⟩
    rw [keyRecords, keyed_append]
  · have hnone : keyText? key record = none := by
      rw [Option.eq_none_iff_forall_ne_some]
      exact fun text htext => hskipped text (keyText?_eq_some_iff.1 htext)
    rw [keyRecords, keyRecords, List.append_cons, keyed_append, keyed_concat, hnone,
      keyed_append before]
    rfl

/-- A number and a text with the same rendering collide, and the later one stays; a record with
null and a text count for nothing. -/
theorem keyRecords_keeps_last_seven :
    let record (id : Value) : Value := .object [("id", id)]
    let seven : Value := .number (.whole 7 (by decide))
    let records : List Value := [record seven, .string "id", record (.string "7"), record .null]
    IsKeyedAs "id" (record seven) "7" ∧ IsKeyedAs "id" (record (.string "7")) "7" ∧
      (∀ text, ¬IsKeyedAs "id" (record .null) text) ∧
      keyRecords "id" (.array records) = .ok (.object [("7", record (.string "7"))]) ∧
      keyRecords "id" (.array [record seven, .string "id", record (.string "7")]) =
        .ok (.object [("7", record (.string "7"))]) := by
  intro record seven records
  obtain ⟨-, -, hskip⟩ := keyRecords_keeps_last "id"
  have hnull : ∀ text, ¬IsKeyedAs "id" (record .null) text := by
    rintro text ⟨fields, id, hfields, hget, hid, -⟩
    cases hfields
    exact hid (Option.some.inj hget).symm
  have hrecords : keyRecords "id" (.array records) =
      .ok (.object [("7", record (.string "7"))]) := by decide +kernel
  have hfewer := hskip [record seven, .string "id", record (.string "7")] _ [] hnull
  exact ⟨⟨_, _, rfl, rfl, nofun, rfl⟩, ⟨_, _, rfl, rfl, nofun, rfl⟩, hnull, hrecords,
    hfewer.symm.trans hrecords⟩

end PayloadMapping.Action
