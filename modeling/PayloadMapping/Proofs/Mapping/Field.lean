import Mathlib.Data.List.Forall2
import Mathlib.Data.List.Perm.Basic
import PayloadMapping.Mapping.Decode
import PayloadMapping.Proofs.Action.Written
import PayloadMapping.Proofs.Path.Segments

set_option autoImplicit false

/-!
# Field rules and their fields

Every field of a field rule decodes on its own and fills one slot of the rule. So the order of
the fields does not count, and a rule decodes from what is written of it.
-/

namespace PayloadMapping

theorem exists_of_forall₂ {α β : Type} {r : α → β → Prop} {items : List α} {results : List β}
    (h : List.Forall₂ r items results) : ∀ a ∈ items, ∃ b, r a b := by
  induction h with
  | nil => simp
  | cons hone _ ih => exact List.forall_mem_cons.2 ⟨⟨_, hone⟩, ih⟩

theorem forall₂_of_exists {α β : Type} {r : α → β → Prop} :
    ∀ {items : List α}, (∀ a ∈ items, ∃ b, r a b) → ∃ results, List.Forall₂ r items results
  | [], _ => ⟨[], .nil⟩
  | a :: rest, h => by
    obtain ⟨b, hb⟩ := h a List.mem_cons_self
    obtain ⟨results, hrest⟩ := forall₂_of_exists fun c hc => h c (List.mem_cons_of_mem a hc)
    exact ⟨b :: results, .cons hb hrest⟩

end PayloadMapping

namespace PayloadMapping.Decode

variable {ε α β : Type}

theorem bind_eq_ok {step : Except ε α} {next : α → Except ε β} {b : β}
    (h : step >>= next = .ok b) : ∃ a, step = .ok a ∧ next a = .ok b := by
  cases step with
  | error e => cases h
  | ok a => exact ⟨a, rfl, h⟩

theorem map_eq_ok {step : Except ε α} {make : α → β} {b : β} (h : step.map make = .ok b) :
    ∃ a, step = .ok a ∧ make a = b := by
  cases step with
  | error e => cases h
  | ok a => exact ⟨a, rfl, Except.ok.inj h⟩

theorem optional_ok_iff {decode : Value → Except DecodeError α} {v : Value}
    {found : Option α} : optional decode v = .ok found ↔
      v = .null ∧ found = none ∨ v ≠ .null ∧ ∃ a, decode v = .ok a ∧ found = some a := by
  cases v with
  | null => simp [optional, eq_comm]
  | bool _ | number _ | string _ | array _ | object _ =>
    simp only [optional, ne_eq, reduceCtorEq, not_false_eq_true, true_and, false_and, false_or]
    constructor
    · intro h
      obtain ⟨a, ha, rfl⟩ := map_eq_ok h
      exact ⟨a, ha, rfl⟩
    · rintro ⟨a, ha, rfl⟩
      rw [ha]
      rfl

end PayloadMapping.Decode

namespace PayloadMapping.FieldRule

inductive Slot where
  | source (path : Option Path)
  | target (path : Path)
  | action (action : Option Action)
  | isOptional (b : Bool)
  | addToCache (b : Bool)
  | isUniqueId (b : Bool)
  | fromParent (b : Bool)
  | defaultValue (v : Option Value)

namespace Slot

def key : Slot → String
  | .source _ => "from"
  | .target _ => "to"
  | .action _ => "action"
  | .isOptional _ => "is_optional"
  | .addToCache _ => "add_to_cache"
  | .isUniqueId _ => "is_unique_id"
  | .fromParent _ => "from_parent"
  | .defaultValue _ => "default_value"

end Slot

def Parts.set (parts : Parts) : Slot → Parts
  | .source path => { parts with source := path }
  | .target path => { parts with target := some path }
  | .action action => { parts with action := action }
  | .isOptional b => { parts with isOptional := b }
  | .addToCache b => { parts with addToCache := b }
  | .isUniqueId b => { parts with isUniqueId := b }
  | .fromParent b => { parts with fromParent := b }
  | .defaultValue v => { parts with defaultValue := v }

theorem Parts.set_comm (parts : Parts) {a b : Slot} (h : a.key ≠ b.key) :
    (parts.set a).set b = (parts.set b).set a := by
  cases a <;> cases b <;> first | rfl | exact absurd rfl h

def decodeSlot (key : String) (v : Value) : Except DecodeError Slot :=
  if key = "from" then (Decode.optional decodePath v).map .source
  else if key = "to" then (decodePath v).map .target
  else if key = "action" then (Decode.optional Action.decode v).map .action
  else if key = "is_optional" then (Decode.flag v).map .isOptional
  else if key = "add_to_cache" then (Decode.flag v).map .addToCache
  else if key = "is_unique_id" then (Decode.flag v).map .isUniqueId
  else if key = "from_parent" then (Decode.flag v).map .fromParent
  else if key = "default_value" then .ok (.defaultValue (if v = .null then none else some v))
  else .error (.unknownField key keys)

theorem mem_keys_iff (key : String) : key ∈ keys ↔ key = "from" ∨ key = "to" ∨ key = "action" ∨
    key = "is_optional" ∨ key = "add_to_cache" ∨ key = "is_unique_id" ∨ key = "from_parent" ∨
    key = "default_value" := by
  simp only [keys, List.mem_cons, List.not_mem_nil, or_false]

theorem decodeSlot_unknown {key : String} (h : key ∉ keys) (v : Value) :
    decodeSlot key v = .error (.unknownField key keys) := by
  rw [mem_keys_iff] at h
  push Not at h
  obtain ⟨hfrom, hto, haction, hoptional, hcache, hunique, hparent, hdefault⟩ := h
  rw [decodeSlot, if_neg hfrom, if_neg hto, if_neg haction, if_neg hoptional, if_neg hcache,
    if_neg hunique, if_neg hparent, if_neg hdefault]

theorem decodePart_unknown {key : String} (h : key ∉ keys) (parts : Parts) (v : Value) :
    decodePart parts key v = .error (.unknownField key keys) := by
  rw [mem_keys_iff] at h
  push Not at h
  obtain ⟨hfrom, hto, haction, hoptional, hcache, hunique, hparent, hdefault⟩ := h
  rw [decodePart, if_neg hfrom, if_neg hto, if_neg haction, if_neg hoptional, if_neg hcache,
    if_neg hunique, if_neg hparent, if_neg hdefault]

theorem decodePart_eq (parts : Parts) (key : String) (v : Value) :
    decodePart parts key v = (decodeSlot key v).map parts.set := by
  by_cases h : key ∈ keys
  · rcases (mem_keys_iff key).1 h with rfl | rfl | rfl | rfl | rfl | rfl | rfl | rfl
    · change (Decode.optional decodePath v >>= _) = ((Decode.optional decodePath v).map _).map _
      cases Decode.optional decodePath v <;> rfl
    · change (decodePath v >>= _) = ((decodePath v).map _).map _
      cases decodePath v <;> rfl
    · change (Decode.optional Action.decode v >>= _) =
        ((Decode.optional Action.decode v).map _).map _
      cases Decode.optional Action.decode v <;> rfl
    · cases v <;> rfl
    · cases v <;> rfl
    · cases v <;> rfl
    · cases v <;> rfl
    · rfl
  · rw [decodePart_unknown h, decodeSlot_unknown h]
    rfl

theorem key_of_decodeSlot {key : String} {v : Value} {slot : Slot}
    (h : decodeSlot key v = .ok slot) : slot.key = key := by
  have hmap : ∀ {α : Type} {found : Except DecodeError α} {make : α → Slot},
      found.map make = .ok slot → (∀ a, (make a).key = key) → slot.key = key := by
    intro α found make hmap hkey
    obtain ⟨a, _, rfl⟩ := Decode.map_eq_ok hmap
    exact hkey a
  by_cases hknown : key ∈ keys
  · rcases (mem_keys_iff key).1 hknown with rfl | rfl | rfl | rfl | rfl | rfl | rfl | rfl
    · exact hmap h fun _ => rfl
    · exact hmap h fun _ => rfl
    · exact hmap h fun _ => rfl
    · exact hmap h fun _ => rfl
    · exact hmap h fun _ => rfl
    · exact hmap h fun _ => rfl
    · exact hmap h fun _ => rfl
    · obtain rfl := Except.ok.inj h
      rfl
  · rw [decodeSlot_unknown hknown] at h
    cases h

theorem decodeParts_cons {key : String} {v : Value} {slot : Slot}
    (h : decodeSlot key v = .ok slot) (parts : Parts) (rest : List (String × Value)) :
    decodeParts parts ((key, v) :: rest) = decodeParts (parts.set slot) rest := by
  rw [decodeParts, decodePart_eq, h]
  rfl

/-- Fields decode exactly if each of them does, and then fill their slots one after another. -/
theorem decodeParts_ok_iff {parts result : Parts} {fields : List (String × Value)} :
    decodeParts parts fields = .ok result ↔
      ∃ slots, List.Forall₂ (fun field slot => decodeSlot field.1 field.2 = .ok slot) fields slots ∧
        slots.foldl Parts.set parts = result := by
  induction fields generalizing parts with
  | nil =>
    constructor
    · intro h
      exact ⟨[], .nil, Except.ok.inj h⟩
    · rintro ⟨slots, ⟨⟩, h⟩
      exact congrArg Except.ok h
  | cons field rest ih =>
    obtain ⟨key, v⟩ := field
    constructor
    · intro h
      rw [decodeParts, decodePart_eq] at h
      obtain ⟨next, hnext, hrest⟩ := Decode.bind_eq_ok h
      obtain ⟨slot, hslot, rfl⟩ := Decode.map_eq_ok hnext
      obtain ⟨slots, hslots, hresult⟩ := ih.1 hrest
      exact ⟨slot :: slots, .cons hslot hslots, hresult⟩
    · rintro ⟨slots, hslots, hresult⟩
      cases hslots with
      | cons hslot hrest =>
        rw [decodeParts_cons hslot]
        exact ih.2 ⟨_, hrest, hresult⟩

theorem keys_of_decodeSlots {fields : List (String × Value)} {slots : List Slot}
    (h : List.Forall₂ (fun field slot => decodeSlot field.1 field.2 = .ok slot) fields slots) :
    slots.map Slot.key = fields.map Prod.fst := by
  induction h with
  | nil => rfl
  | cons hslot _ ih => rw [List.map_cons, List.map_cons, ih, key_of_decodeSlot hslot]

/-- The order of fields with different keys does not count. -/
theorem decodeParts_perm {parts result : Parts} {fields others : List (String × Value)}
    (h : fields.Perm others) (hkeys : (fields.map Prod.fst).Nodup)
    (hfields : decodeParts parts fields = .ok result) : decodeParts parts others = .ok result := by
  obtain ⟨slots, hslots, rfl⟩ := decodeParts_ok_iff.1 hfields
  obtain ⟨moved, hmoved, hperm⟩ := List.perm_comp_forall₂ h.symm hslots
  refine decodeParts_ok_iff.2 ⟨moved, hmoved, ?_⟩
  have hdistinct : (moved.map Slot.key).Nodup := by
    rw [keys_of_decodeSlots hmoved]
    exact (h.map Prod.fst).nodup_iff.1 hkeys
  refine hperm.foldl_eq' ?_ parts
  intro a ha b hb acc
  by_cases hkey : a.key = b.key
  · rw [List.inj_on_of_nodup_map hdistinct ha hb hkey]
  · exact Parts.set_comm acc hkey

/-! ## Written rules -/

/-- The rule with the paths that its texts are parsed to, and without null as its default, which is
the default of a rule without one. -/
def canonical (rule : FieldRule) : FieldRule :=
  { rule with
    source := rule.source.map Path.canonical
    target := rule.target.canonical
    defaultValue := rule.defaultValue.filter (· ≠ .null) }

/-- The fields of a rule in the order in which they are declared; those that are not written are
none. -/
def entries (rule : FieldRule) : List (String × Option Value) :=
  let flag b : Option Value := if b then some (.bool true) else none
  [("from", rule.source.map fun path => .string path.text), ("to", some (.string rule.target.text)),
    ("action", rule.action.map fun action => action.outline.toValue),
    ("is_optional", flag rule.isOptional), ("add_to_cache", flag rule.addToCache),
    ("is_unique_id", flag rule.isUniqueId), ("from_parent", flag rule.fromParent),
    ("default_value", rule.defaultValue)]

def entryField (key : String) (v : Option Value) : List (String × Value) :=
  (v.map fun v => (key, v)).toList

def written (rule : FieldRule) : List (String × Value) :=
  rule.entries.flatMap fun entry => entryField entry.1 entry.2

theorem toFields_append (first second : List (String × Outline)) :
    Outline.toFields (first ++ second) = Outline.toFields first ++ Outline.toFields second := by
  induction first with
  | nil => rfl
  | cons field rest ih =>
    obtain ⟨key, outline⟩ := field
    rw [List.cons_append, Outline.toFields, Outline.toFields, ih, List.cons_append]

theorem toValue_outline (rule : FieldRule) :
    rule.outline.toValue = .object (Fields.sorted rule.written) := by
  have htext : ∀ key (s : Option String), Outline.toFields (Outline.textField? key s) =
      entryField key (s.map Value.string) := by
    intro key s
    cases s <;> rfl
  have haction : ∀ action : Option Action,
      Outline.toFields (Action.outlineField? "action" action) =
        entryField "action" (action.map fun action => action.outline.toValue) := by
    intro action
    cases action <;> rfl
  have hflag : ∀ key b, Outline.toFields (Outline.flagField key b) =
      entryField key (if b then some (.bool true) else none) := by
    intro key b
    cases b <;> rfl
  unfold outline
  rw [Outline.toValue]
  refine congrArg (fun fields => Value.object (Fields.sorted fields)) ?_
  simp only [toFields_append, htext, haction, hflag, written, entries, List.flatMap_cons,
    List.flatMap_nil, List.append_assoc, List.append_nil, Option.map_map]
  cases rule.defaultValue <;> rfl

theorem keys_written_sublist (rule : FieldRule) : (Fields.keys rule.written).Sublist keys := by
  have hentries : ∀ entries : List (String × Option Value),
      (Fields.keys (entries.flatMap fun entry => entryField entry.1 entry.2)).Sublist
        (entries.map Prod.fst) := by
    intro entries
    induction entries with
    | nil => exact .refl _
    | cons entry rest ih =>
      obtain ⟨key, v⟩ := entry
      cases v with
      | none => exact ih.cons key
      | some v => exact ih.cons_cons key
  exact hentries rule.entries

theorem nodup_keys_written (rule : FieldRule) : (Fields.keys rule.written).Nodup :=
  rule.keys_written_sublist.nodup (by decide)

theorem decodeParts_entryField {key : String} {v : Option Value} {slot : Slot} {parts : Parts}
    (hsome : ∀ w ∈ v, decodeSlot key w = .ok slot) (hnone : v = none → parts.set slot = parts)
    (rest : List (String × Value)) :
    decodeParts parts (entryField key v ++ rest) = decodeParts (parts.set slot) rest := by
  cases v with
  | none =>
    rw [hnone rfl]
    rfl
  | some w => exact decodeParts_cons (hsome w rfl) parts rest

theorem decodeParts_flag {key : String} {slot : Bool → Slot} {parts : Parts} {b : Bool}
    (htrue : decodeSlot key (.bool true) = .ok (slot true))
    (hfalse : parts.set (slot false) = parts) (rest : List (String × Value)) :
    decodeParts parts (entryField key (if b then some (.bool true) else none) ++ rest) =
      decodeParts (parts.set (slot b)) rest := by
  cases b with
  | false =>
    rw [hfalse]
    rfl
  | true => exact decodeParts_cons htrue parts rest

theorem decodeSlot_source (rule : FieldRule) :
    ∀ w ∈ rule.source.map fun path => Value.string path.text,
      decodeSlot "from" w = .ok (.source rule.canonical.source) := by
  intro w hw
  obtain ⟨path, hpath, rfl⟩ := Option.map_eq_some_iff.1 hw
  unfold canonical
  rw [hpath]
  rfl

theorem decodeSlot_action (rule : FieldRule) :
    ∀ w ∈ rule.action.map fun action => action.outline.toValue,
      decodeSlot "action" w = .ok (.action rule.action) := by
  intro w hw
  obtain ⟨action, haction, rfl⟩ := Option.map_eq_some_iff.1 hw
  rw [haction]
  change (Decode.optional Action.decode action.outline.toValue).map Slot.action = _
  rw [Action.optional_outline]
  rfl

theorem decodeSlot_default (rule : FieldRule) : ∀ w ∈ rule.defaultValue,
    decodeSlot "default_value" w = .ok (.defaultValue rule.canonical.defaultValue) := by
  intro w hw
  have hfilter : rule.canonical.defaultValue = if w = .null then none else some w := by
    unfold canonical
    rw [Option.mem_def.1 hw, Option.filter_some]
    by_cases hnull : w = .null <;> simp [hnull]
  rw [hfilter]
  rfl

theorem decodeParts_written (rule : FieldRule) :
    decodeParts {} rule.written = .ok
      { source := rule.canonical.source
        target := some rule.canonical.target
        action := rule.action
        isOptional := rule.isOptional
        addToCache := rule.addToCache
        isUniqueId := rule.isUniqueId
        fromParent := rule.fromParent
        defaultValue := rule.canonical.defaultValue } := by
  have htarget : ∀ w ∈ some (Value.string rule.target.text),
      decodeSlot "to" w = .ok (.target rule.canonical.target) := by
    intro w hw
    obtain rfl := Option.some.inj hw
    rfl
  simp only [written, entries, List.flatMap_cons, List.flatMap_nil]
  rw [decodeParts_entryField rule.decodeSlot_source, decodeParts_entryField htarget,
    decodeParts_entryField rule.decodeSlot_action, decodeParts_flag rfl rfl,
    decodeParts_flag rfl rfl, decodeParts_flag rfl rfl, decodeParts_flag rfl rfl,
    decodeParts_entryField rule.decodeSlot_default]
  · rfl
  -- what is not written leaves its part as it is
  · intro h
    unfold canonical
    rw [h]
    rfl
  · intro h
    rw [Option.map_eq_none_iff.1 h]
    rfl
  · intro h
    cases h
  · intro h
    unfold canonical
    rw [Option.map_eq_none_iff.1 h]
    rfl

/-- A rule decodes from what is written of it, up to its paths and its default. -/
theorem decode_written (rule : FieldRule) :
    decode (Fields.sorted rule.written) = .ok rule.canonical := by
  have hkeys := rule.nodup_keys_written
  have hperm := Fields.perm_sorted hkeys
  have hparts := decodeParts_perm hperm.symm hkeys rule.decodeParts_written
  unfold decode
  rw [hparts]
  rfl

end PayloadMapping.FieldRule
