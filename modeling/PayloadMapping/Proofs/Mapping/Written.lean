import PayloadMapping.Engine.Evaluate
import PayloadMapping.Proofs.Mapping.Field
import PayloadMapping.Proofs.Mapping.Nested

set_option autoImplicit false

/-!
# Written mappings

What is written of a mapping decodes to the mapping with the paths that are read from texts and
without nulls as defaults. That is the mapping itself unless a path is one empty segment or a
default is null; nulls as defaults make no difference to what the mapping does, and decoding gives
neither.
-/

namespace PayloadMapping

open Outline

namespace Rule

mutual

/-- The rule with the paths that its texts are parsed to, and without nulls as defaults. -/
def canonical : Rule → Rule
  | .field rule => .field rule.canonical
  | .group rules => .group (canonicalAll rules)
  | .loop source target rules action =>
    .loop source.canonical target.canonical (canonicalAll rules) action

def canonicalAll : List Rule → List Rule
  | [] => []
  | rule :: rest => canonical rule :: canonicalAll rest

end

theorem length_canonicalAll (rules : List Rule) : (canonicalAll rules).length = rules.length := by
  induction rules with
  | nil => rfl
  | cons rule rest ih => rw [canonicalAll, List.length_cons, List.length_cons, ih]

end Rule

theorem FieldRule.canonical_eq_self_iff {rule : FieldRule} :
    rule.canonical = rule ↔
      rule.defaultValue ≠ some .null ∧ ∀ path ∈ rule.paths, path.segments ≠ [""] := by
  obtain ⟨source, target, action, isOptional, addToCache, isUniqueId, fromParent, default⟩ := rule
  have hdefault : default.filter (· ≠ .null) = default ↔ default ≠ some .null := by
    cases default <;> simp
  have hsource : source.map Path.canonical = source ↔
      ∀ path ∈ source.toList, path.segments ≠ [""] := by
    cases source <;> simp [Path.canonical_eq_self_iff]
  unfold canonical paths
  simp only [FieldRule.mk.injEq, hdefault, hsource, Path.canonical_eq_self_iff, true_and,
    List.forall_mem_append, List.forall_mem_singleton]
  tauto

namespace Rule

mutual

theorem canonical_eq_self_iff : ∀ {rule : Rule},
    rule.canonical = rule ↔ (∀ field ∈ rule.fields, field.defaultValue ≠ some .null) ∧
      ∀ path ∈ rule.paths, path.segments ≠ [""]
  | .field rule => by
    rw [canonical, field.injEq, FieldRule.canonical_eq_self_iff, fields, paths,
      List.forall_mem_singleton]
  | .group rules => by
    rw [canonical, group.injEq, canonicalAll_eq_self_iff, fields, paths]
  | .loop source target rules action => by
    rw [canonical, loop.injEq, canonicalAll_eq_self_iff, fields, forall_mem_paths_loop,
      Path.canonical_eq_self_iff, Path.canonical_eq_self_iff]
    tauto

theorem canonicalAll_eq_self_iff : ∀ {rules : List Rule},
    canonicalAll rules = rules ↔ (∀ field ∈ fieldsAll rules, field.defaultValue ≠ some .null) ∧
      ∀ path ∈ pathsAll rules, path.segments ≠ [""]
  | [] => by simp [canonicalAll, fieldsAll, pathsAll]
  | rule :: rest => by
    rw [canonicalAll, List.cons.injEq, canonical_eq_self_iff, canonicalAll_eq_self_iff, fieldsAll,
      pathsAll, List.forall_mem_append, List.forall_mem_append]
    tauto

end

/-! ## What is written of rules -/

theorem contains_written {rule : FieldRule} {key : String} (h : key ∉ FieldRule.keys) :
    Fields.contains key (Fields.sorted rule.written) = false := by
  rw [Bool.eq_false_iff]
  intro hcontains
  have hmem := (Fields.contains_iff_mem_keys _ _).1 hcontains
  have hperm := Fields.perm_sorted rule.nodup_keys_written
  have hwritten : key ∈ Fields.keys rule.written := (hperm.map Prod.fst).mem_iff.1 hmem
  exact h (rule.keys_written_sublist.subset hwritten)

theorem decode_field (rule : FieldRule) :
    decode rule.outline.toValue = .ok (.field rule.canonical) := by
  rw [FieldRule.toValue_outline, decode, contains_written (by decide), contains_written (by decide),
    if_neg (by decide), if_neg (by decide), FieldRule.decode_written]
  rfl

theorem decodeLoopFields_part {key : String} {v : Value} {parts next : LoopParts}
    (hkey : key ≠ "field_set") (h : decodeLoopPart parts key v = .ok next)
    (rest : List (String × Value)) :
    decodeLoopFields parts ((key, v) :: rest) = decodeLoopFields next rest := by
  rw [decodeLoopFields, if_neg hkey, h]
  rfl

theorem decodeLoopFields_rules {v : Value} {rules : List Rule} (h : decodeRules v = .ok rules)
    (parts : LoopParts) (rest : List (String × Value)) :
    decodeLoopFields parts (("field_set", v) :: rest) =
      decodeLoopFields { parts with rules := rules } rest := by
  rw [decodeLoopFields, if_pos rfl, h]
  rfl

theorem decodeLoopPart_source (parts : LoopParts) (path : Path) :
    decodeLoopPart parts "from" (.string path.text) =
      .ok { parts with source := some path.canonical } := rfl

theorem decodeLoopPart_target (parts : LoopParts) (path : Path) :
    decodeLoopPart parts "to" (.string path.text) =
      .ok { parts with target := some path.canonical } := rfl

theorem decodeLoopPart_action (parts : LoopParts) (action : Action) :
    decodeLoopPart parts "action" action.outline.toValue =
      .ok { parts with action := some action } := by
  change (Decode.optional Action.decode action.outline.toValue >>= _) = _
  rw [Action.optional_outline]
  rfl

def writtenBody (source target : Path) (rules : Value) : Option Action → List (String × Value)
  | none => [("field_set", rules), ("from", .string source.text), ("to", .string target.text)]
  | some action =>
    [("action", action.outline.toValue), ("field_set", rules), ("from", .string source.text),
      ("to", .string target.text)]

theorem toValue_loop (source target : Path) (rules : List Rule) (action : Option Action) :
    (loop source target rules action).outline.toValue =
      .object [("for_each", .object
        (writtenBody source target (.array (toValues (outlines rules))) action))] := by
  let declared : Fields Value :=
    toFields (textField "from" source.text ++ textField "to" target.text
      ++ ("field_set", .list (outlines rules)) :: Action.outlineField? "action" action)
  have hsorted : Fields.sorted declared =
      writtenBody source target (.array (toValues (outlines rules))) action := by
    have hkeys : (["action", "field_set", "from", "to"] : List String).Pairwise (· < ·) := by decide
    have hperm : (declared.take 2 ++ declared.drop 2).Perm (declared.drop 2 ++ declared.take 2) :=
      List.perm_append_comm
    cases action with
    | none => exact Fields.sorted_eq_of_perm hperm (List.pairwise_cons.1 hkeys).2
    | some action => exact Fields.sorted_eq_of_perm (hperm.trans (.swap _ _ _)) hkeys
  rw [outline]
  exact congrArg (fun fields => Value.object [("for_each", .object fields)]) hsorted

theorem decodeLoop_written {source target : Path} {v : Value} {rules : List Rule}
    (h : decodeRules v = .ok rules) (action : Option Action) :
    decodeLoop (.object (writtenBody source target v action)) =
      .ok (.loop source.canonical target.canonical rules action) := by
  rw [decodeLoop]
  cases action with
  | none =>
    rw [writtenBody, decodeLoopFields_rules h,
      decodeLoopFields_part (by decide) (decodeLoopPart_source _ source),
      decodeLoopFields_part (by decide) (decodeLoopPart_target _ target), decodeLoopFields]
    rfl
  | some action =>
    rw [writtenBody, decodeLoopFields_part (by decide) (decodeLoopPart_action _ action),
      decodeLoopFields_rules h, decodeLoopFields_part (by decide) (decodeLoopPart_source _ source),
      decodeLoopFields_part (by decide) (decodeLoopPart_target _ target), decodeLoopFields]
    rfl

mutual

theorem decode_outline : ∀ rule : Rule, decode rule.outline.toValue = .ok rule.canonical
  | .field rule => by
    rw [outline, canonical, decode_field]
  | .group rules => by
    have hrules := decodeAll_outlines rules
    have hvalue : (group rules).outline.toValue =
        .object [("field_set", .array (toValues (outlines rules)))] := by
      rw [outline]
      rfl
    rw [hvalue, decode, canonical]
    change decodeSole [("field_set", .array (toValues (outlines rules)))] = _
    rw [decodeSole, if_neg (by decide), decodeRules, hrules]
    rfl
  | .loop source target rules action => by
    have hrules : decodeRules (.array (toValues (outlines rules))) = .ok (canonicalAll rules) := by
      rw [decodeRules]
      exact decodeAll_outlines rules
    rw [toValue_loop, decode, canonical]
    change decodeSole [("for_each", .object (writtenBody source target _ action))] = _
    rw [decodeSole, if_pos rfl, decodeLoop_written hrules]

theorem decodeAll_outlines : ∀ rules : List Rule,
    decodeAll (toValues (outlines rules)) = .ok (canonicalAll rules)
  | [] => by
    rw [outlines, toValues, decodeAll, canonicalAll]
  | rule :: rest => by
    rw [outlines, toValues, decodeAll, decode_outline rule, canonicalAll]
    change (decodeAll (toValues (outlines rest)) >>= _) = _
    rw [decodeAll_outlines rest]
    rfl

end

end Rule

/-! ## What decoding gives -/

theorem Rule.decodeRules_ok {v : Value} {rules : List Rule} (h : Rule.decodeRules v = .ok rules) :
    ∃ items, v = .array items ∧ Rule.decodeAll items = .ok rules := by
  cases v with
  | array items =>
    rw [Rule.decodeRules] at h
    exact ⟨items, rfl, h⟩
  | null | bool | number | string | object =>
    rw [Rule.decodeRules] at h
    · cases h
    · simp

namespace FieldRule

theorem segments_of_decodePath {v : Value} {path : Path} (h : decodePath v = .ok path) :
    path.segments ≠ [""] := by
  obtain ⟨text, rfl, rfl⟩ := decodePath_ok_iff.1 h
  exact Path.exists_parse_iff.1 ⟨text, rfl⟩

structure Parts.IsCanonical (parts : Parts) : Prop where
  source : ∀ path ∈ parts.source, path.segments ≠ [""]
  target : ∀ path ∈ parts.target, path.segments ≠ [""]
  default : parts.defaultValue ≠ some .null

theorem Parts.IsCanonical.set {parts : Parts} (h : parts.IsCanonical) {key : String} {v : Value}
    {slot : Slot} (hslot : decodeSlot key v = .ok slot) : (parts.set slot).IsCanonical := by
  have hkey := key_of_decodeSlot hslot
  cases slot with
  | source path =>
    obtain rfl : "from" = key := hkey
    obtain ⟨found, hfound, hsource⟩ := Decode.map_eq_ok hslot
    obtain rfl := Slot.source.inj hsource
    refine ⟨?_, h.target, h.default⟩
    obtain ⟨-, rfl⟩ | ⟨-, path, hpath, rfl⟩ := Decode.optional_ok_iff.1 hfound
    · simp [Parts.set]
    · simpa [Parts.set] using segments_of_decodePath hpath
  | target path =>
    obtain rfl : "to" = key := hkey
    obtain ⟨found, hfound, htarget⟩ := Decode.map_eq_ok hslot
    obtain rfl := Slot.target.inj htarget
    exact ⟨h.source, by simpa [Parts.set] using segments_of_decodePath hfound, h.default⟩
  | defaultValue d =>
    obtain rfl : "default_value" = key := hkey
    obtain ⟨rfl⟩ := Except.ok.inj hslot
    refine ⟨h.source, h.target, ?_⟩
    by_cases hnull : v = .null <;> simp [Parts.set, hnull]
  | action | isOptional | addToCache | isUniqueId | fromParent =>
    exact ⟨h.source, h.target, h.default⟩

theorem isCanonical_of_decodeParts {fields : List (String × Value)} {parts result : Parts}
    (h : decodeParts parts fields = .ok result) (hparts : parts.IsCanonical) :
    result.IsCanonical := by
  induction fields generalizing parts with
  | nil =>
    obtain rfl := Except.ok.inj h
    exact hparts
  | cons field rest ih =>
    obtain ⟨key, v⟩ := field
    obtain ⟨next, hnext, hrest⟩ := Decode.bind_eq_ok h
    rw [decodePart_eq] at hnext
    obtain ⟨slot, hslot, rfl⟩ := Decode.map_eq_ok hnext
    exact ih hrest (hparts.set hslot)

theorem canonical_of_decode {fields : List (String × Value)} {rule : FieldRule}
    (h : decode fields = .ok rule) : rule.canonical = rule := by
  obtain ⟨parts, hparts, hrule⟩ := Decode.bind_eq_ok h
  have hcanonical : parts.IsCanonical :=
    isCanonical_of_decodeParts hparts ⟨by simp, by simp, by simp⟩
  unfold ofParts at hrule
  split at hrule
  · cases hrule
  · rename_i target htarget
    obtain rfl := Except.ok.inj hrule
    refine canonical_eq_self_iff.2 ⟨hcanonical.default, List.forall_mem_append.2 ⟨?_, ?_⟩⟩
    · exact fun path hpath => hcanonical.source path (Option.mem_toList.1 hpath)
    · exact List.forall_mem_singleton.2 (hcanonical.target target htarget)

end FieldRule

namespace Rule

structure LoopParts.IsCanonical (parts : LoopParts) : Prop where
  source : ∀ path ∈ parts.source, path.segments ≠ [""]
  target : ∀ path ∈ parts.target, path.segments ≠ [""]
  rules : canonicalAll parts.rules = parts.rules

theorem LoopParts.IsCanonical.decoded {parts next : LoopParts} (h : parts.IsCanonical)
    {key : String} {v : Value} (hnext : decodeLoopPart parts key v = .ok next) :
    next.IsCanonical := by
  unfold decodeLoopPart at hnext
  split_ifs at hnext
  · obtain ⟨path, hpath, hset⟩ := Decode.bind_eq_ok hnext
    obtain rfl := Except.ok.inj hset
    exact ⟨by simpa using FieldRule.segments_of_decodePath hpath, h.target, h.rules⟩
  · obtain ⟨path, hpath, hset⟩ := Decode.bind_eq_ok hnext
    obtain rfl := Except.ok.inj hset
    exact ⟨h.source, by simpa using FieldRule.segments_of_decodePath hpath, h.rules⟩
  · obtain ⟨action, -, hset⟩ := Decode.bind_eq_ok hnext
    obtain rfl := Except.ok.inj hset
    exact ⟨h.source, h.target, h.rules⟩

theorem canonical_of_ofLoopParts {parts : LoopParts} {missing : Nat → String → DecodeError}
    {rule : Rule} (h : ofLoopParts parts missing = .ok rule) (hparts : parts.IsCanonical) :
    rule.canonical = rule := by
  unfold ofLoopParts at h
  split at h
  · cases h
  · cases h
  · rename_i source target hsource htarget
    obtain rfl := Except.ok.inj h
    rw [canonical, hparts.rules, Path.canonical_eq_self_iff.2 (hparts.source source hsource),
      Path.canonical_eq_self_iff.2 (hparts.target target htarget)]

mutual

theorem canonical_of_decode : ∀ {v : Value} {rule : Rule}, decode v = .ok rule →
    rule.canonical = rule
  | .object fields, rule, h => by
    rw [decode] at h
    split_ifs at h
    · obtain ⟨_, _, hsole⟩ := Decode.bind_eq_ok h
      exact canonical_of_decodeSole hsole
    · obtain ⟨_, _, hsole⟩ := Decode.bind_eq_ok h
      exact canonical_of_decodeSole hsole
    · obtain ⟨field, hfield, rfl⟩ := Decode.map_eq_ok h
      rw [canonical, FieldRule.canonical_of_decode hfield]
  | .null, _, h | .bool _, _, h | .number _, _, h | .string _, _, h | .array _, _, h => by
    rw [decode] at h
    · cases h
    · simp

theorem canonical_of_decodeSole : ∀ {fields : List (String × Value)} {rule : Rule},
    decodeSole fields = .ok rule → rule.canonical = rule
  | [], _, h => by
    rw [decodeSole] at h
    cases h
  | (key, body) :: _, rule, h => by
    rw [decodeSole] at h
    split_ifs at h
    · exact canonical_of_decodeLoop h
    · obtain ⟨rules, hrules, rfl⟩ := Decode.map_eq_ok h
      rw [canonical, canonicalAll_of_decodeRules hrules]

theorem canonicalAll_of_decodeRules : ∀ {v : Value} {rules : List Rule},
    decodeRules v = .ok rules → canonicalAll rules = rules
  | .array items, rules, h => by
    rw [decodeRules] at h
    exact canonicalAll_of_decodeAll h
  | .null, _, h | .bool _, _, h | .number _, _, h | .string _, _, h | .object _, _, h => by
    rw [decodeRules] at h
    · cases h
    · simp

theorem canonicalAll_of_decodeAll : ∀ {items : List Value} {rules : List Rule},
    decodeAll items = .ok rules → canonicalAll rules = rules
  | [], rules, h => by
    rw [decodeAll] at h
    obtain rfl := Except.ok.inj h
    rfl
  | v :: rest, rules, h => by
    rw [decodeAll] at h
    obtain ⟨rule, hrule, hmore⟩ := Decode.bind_eq_ok h
    obtain ⟨more, hrest, hrules⟩ := Decode.bind_eq_ok hmore
    obtain rfl := Except.ok.inj hrules
    rw [canonicalAll, canonical_of_decode hrule, canonicalAll_of_decodeAll hrest]

theorem canonical_of_decodeLoop : ∀ {v : Value} {rule : Rule}, decodeLoop v = .ok rule →
    rule.canonical = rule
  | .object fields, rule, h => by
    rw [decodeLoop] at h
    obtain ⟨parts, hparts, hrule⟩ := Decode.bind_eq_ok h
    exact canonical_of_ofLoopParts hrule
      (isCanonical_of_decodeLoopFields hparts ⟨by simp, by simp, rfl⟩)
  | .array items, rule, h => by
    rw [decodeLoop] at h
    obtain ⟨parts, hparts, hmore⟩ := Decode.bind_eq_ok h
    obtain ⟨found, hfound, hrest⟩ := Decode.bind_eq_ok hmore
    obtain ⟨_, _, hrule⟩ := Decode.bind_eq_ok hrest
    obtain rfl := Except.ok.inj hrule
    exact canonical_of_ofLoopParts hfound
      (isCanonical_of_decodeLoopItems hparts ⟨by simp, by simp, rfl⟩)
  | .null, _, h | .bool _, _, h | .number _, _, h | .string _, _, h => by
    rw [decodeLoop] at h
    · cases h
    · simp
    · simp

theorem isCanonical_of_decodeLoopFields : ∀ {fields : List (String × Value)}
    {parts result : LoopParts}, decodeLoopFields parts fields = .ok result →
    parts.IsCanonical → result.IsCanonical
  | [], parts, result, h, hparts => by
    rw [decodeLoopFields] at h
    obtain rfl := Except.ok.inj h
    exact hparts
  | (key, v) :: rest, parts, result, h, hparts => by
    rw [decodeLoopFields] at h
    split_ifs at h
    · obtain ⟨rules, hrules, hrest⟩ := Decode.bind_eq_ok h
      exact isCanonical_of_decodeLoopFields hrest
        ⟨hparts.source, hparts.target, canonicalAll_of_decodeRules hrules⟩
    · obtain ⟨next, hnext, hrest⟩ := Decode.bind_eq_ok h
      exact isCanonical_of_decodeLoopFields hrest (hparts.decoded hnext)

theorem isCanonical_of_decodeLoopItems : ∀ {items : List Value} {keys : List String}
    {parts result : LoopParts}, decodeLoopItems parts items keys = .ok result →
    parts.IsCanonical → result.IsCanonical
  | [], _, parts, result, h, hparts => by
    rw [decodeLoopItems] at h
    · obtain rfl := Except.ok.inj h
      exact hparts
    · simp
  | _ :: _, [], parts, result, h, hparts => by
    rw [decodeLoopItems] at h
    · obtain rfl := Except.ok.inj h
      exact hparts
    · simp
  | v :: rest, key :: keys, parts, result, h, hparts => by
    rw [decodeLoopItems] at h
    split_ifs at h
    · obtain ⟨rules, hrules, hrest⟩ := Decode.bind_eq_ok h
      exact isCanonical_of_decodeLoopItems hrest
        ⟨hparts.source, hparts.target, canonicalAll_of_decodeRules hrules⟩
    · obtain ⟨next, hnext, hrest⟩ := Decode.bind_eq_ok h
      exact isCanonical_of_decodeLoopItems hrest (hparts.decoded hnext)

end

end Rule

namespace Mapping

def canonical (mapping : Mapping) : Mapping :=
  { mapping with rules := Rule.canonicalAll mapping.rules }

theorem canonical_eq_self_iff {mapping : Mapping} :
    mapping.canonical = mapping ↔
      (∀ field ∈ Rule.fieldsAll mapping.rules, field.defaultValue ≠ some .null) ∧
        ∀ path ∈ Rule.pathsAll mapping.rules, path.segments ≠ [""] := by
  obtain ⟨name, rules⟩ := mapping
  rw [canonical, Mapping.mk.injEq, Rule.canonicalAll_eq_self_iff]
  simp only [true_and]

def written (mapping : Mapping) : Fields Value :=
  ("field_set", .array (toValues (Rule.outlines mapping.rules))) ::
    (mapping.name.map fun name => ("name", .string name)).toList

theorem toValue_eq (mapping : Mapping) : mapping.toValue = .object mapping.written := by
  have hkeys : (["field_set", "name"] : List String).Pairwise (· < ·) := by decide
  have hsorted : Fields.sorted (toFields (textField? "name" mapping.name
      ++ [("field_set", .list (Rule.outlines mapping.rules))])) = mapping.written := by
    unfold written
    cases mapping.name with
    | none => rfl
    | some name => exact Fields.sorted_eq_of_perm (.swap _ _ _) hkeys
  exact congrArg Value.object hsorted

theorem decodeField_name {v : Value} {name : Option String}
    (h : Decode.optional Decode.text v = .ok name) (mapping : Mapping) :
    decodeField mapping "name" v = .ok { mapping with name := name } := by
  rw [decodeField, if_pos rfl, h]
  rfl

theorem decodeField_rules {v : Value} {rules : List Rule} (h : Rule.decodeRules v = .ok rules)
    (mapping : Mapping) :
    decodeField mapping "field_set" v = .ok { mapping with rules := rules } := by
  rw [decodeField, if_neg (by decide), if_pos rfl, h]
  rfl

theorem decodeField_ok {mapping next : Mapping} {key : String} {v : Value}
    (h : decodeField mapping key v = .ok next) :
    (key = "name" ∧ ∃ name, Decode.optional Decode.text v = .ok name ∧
        next = { mapping with name := name }) ∨
      (key = "field_set" ∧ ∃ rules, Rule.decodeRules v = .ok rules ∧
        next = { mapping with rules := rules }) := by
  unfold decodeField at h
  split_ifs at h with hname hrules
  · obtain ⟨name, hfound, hset⟩ := Decode.bind_eq_ok h
    exact .inl ⟨hname, name, hfound, (Except.ok.inj hset).symm⟩
  · obtain ⟨rules, hfound, hset⟩ := Decode.bind_eq_ok h
    exact .inr ⟨hrules, rules, hfound, (Except.ok.inj hset).symm⟩

theorem decodeField_comm {mapping next last : Mapping} {key other : String} {v found : Value}
    (hne : key ≠ other) (hfirst : decodeField mapping key v = .ok next)
    (hsecond : decodeField next other found = .ok last) :
    ∃ between, decodeField mapping other found = .ok between ∧
      decodeField between key v = .ok last := by
  obtain ⟨rfl, name, hname, rfl⟩ | ⟨rfl, rules, hrules, rfl⟩ := decodeField_ok hfirst
  · obtain ⟨rfl, -⟩ | ⟨rfl, rules, hrules, rfl⟩ := decodeField_ok hsecond
    · exact absurd rfl hne
    · exact ⟨_, decodeField_rules hrules mapping, decodeField_name hname _⟩
  · obtain ⟨rfl, name, hname, rfl⟩ | ⟨rfl, -⟩ := decodeField_ok hsecond
    · exact ⟨_, decodeField_name hname mapping, decodeField_rules hrules _⟩
    · exact absurd rfl hne

/-- The fields of a mapping may be decoded in any order. -/
theorem decodeFields_perm {fields others : Fields Value} (h : fields.Perm others)
    (hkeys : (Fields.keys fields).Nodup) : ∀ {mapping result : Mapping},
    decodeFields mapping fields = .ok result → decodeFields mapping others = .ok result := by
  induction h with
  | nil => exact id
  | cons field _ ih =>
    intro mapping result hdecode
    obtain ⟨next, hnext, hrest⟩ := Decode.bind_eq_ok hdecode
    have hothers := ih (List.nodup_cons.1 hkeys).2 hrest
    rw [decodeFields, hnext]
    exact hothers
  | swap second first rest =>
    intro mapping result hdecode
    obtain ⟨hne, -⟩ := List.nodup_cons.1 hkeys
    have hkey : first.1 ≠ second.1 := fun h => hne (List.mem_cons.2 (.inl h))
    obtain ⟨next, hnext, hmore⟩ := Decode.bind_eq_ok hdecode
    obtain ⟨last, hlast, hrest⟩ := Decode.bind_eq_ok hmore
    obtain ⟨between, hbetween, hagain⟩ := decodeField_comm hkey hnext hlast
    rw [decodeFields, hbetween]
    change (decodeField between first.1 first.2 >>= _) = _
    rw [hagain]
    exact hrest
  | trans hfirst _ ihfirst ihsecond =>
    intro mapping result hdecode
    have hmiddle := (hfirst.map Prod.fst).nodup_iff.1 hkeys
    exact ihsecond hmiddle (ihfirst hkeys hdecode)

theorem decode_toValue (mapping : Mapping) : decode mapping.toValue = .ok mapping.canonical := by
  have hrules : Rule.decodeRules (.array (toValues (Rule.outlines mapping.rules))) =
      .ok (Rule.canonicalAll mapping.rules) := by
    rw [Rule.decodeRules]
    exact Rule.decodeAll_outlines mapping.rules
  rw [toValue_eq, written, decode, decodeFields, decodeField_rules hrules]
  unfold canonical
  cases mapping.name with
  | none => rfl
  | some name => rfl

theorem canonical_of_decodeFields {fields : List (String × Value)} {mapping result : Mapping}
    (h : decodeFields mapping fields = .ok result) (hmapping : mapping.canonical = mapping) :
    result.canonical = result := by
  induction fields generalizing mapping with
  | nil =>
    obtain rfl := Except.ok.inj h
    exact hmapping
  | cons field rest ih =>
    obtain ⟨key, v⟩ := field
    obtain ⟨next, hnext, hrest⟩ := Decode.bind_eq_ok h
    refine ih hrest ?_
    obtain ⟨-, name, -, rfl⟩ | ⟨-, rules, hrules, rfl⟩ := decodeField_ok hnext
    · have hrules : Rule.canonicalAll mapping.rules = mapping.rules :=
        congrArg Mapping.rules hmapping
      rw [canonical, hrules]
    · rw [canonical, Rule.canonicalAll_of_decodeRules hrules]

/-- A decoded mapping is its own canonical form. -/
theorem canonical_of_decode {tree : Value} {mapping : Mapping} (h : decode tree = .ok mapping) :
    mapping.canonical = mapping := by
  cases tree with
  | object fields => exact canonical_of_decodeFields h rfl
  | array items =>
    obtain ⟨found, hfound, hmore⟩ := Decode.bind_eq_ok h
    split_ifs at hmore
    obtain rfl := Except.ok.inj hmore
    exact canonical_of_decodeFields hfound rfl
  | null | bool _ | number _ | string _ => cases h

end Mapping

/-! ## What mappings without nulls do -/

namespace Engine

theorem fieldValue_canonical (engine : Engine) {rule : FieldRule}
    (h : ∀ path ∈ rule.paths, path.segments ≠ [""]) (current parent : Value) :
    engine.fieldValue rule.canonical current parent = engine.fieldValue rule current parent := by
  obtain ⟨hsource, htarget⟩ := List.forall_mem_append.1 h
  have htarget : rule.target.canonical = rule.target :=
    Path.canonical_eq_self_iff.2 (htarget rule.target (List.mem_singleton.2 rfl))
  have hdefault : rule.canonical.defaultValue.getD .null = rule.defaultValue.getD .null := by
    unfold FieldRule.canonical
    cases rule.defaultValue with
    | none => rfl
    | some v =>
      rw [Option.filter_some]
      by_cases hnull : v = .null <;> simp [hnull]
  have hpath : rule.canonical.source = rule.source := by
    unfold FieldRule.canonical
    cases hfrom : rule.source with
    | none => rfl
    | some path =>
      have hsegments := hsource path (Option.mem_toList.2 hfrom)
      exact congrArg some (Path.canonical_eq_self_iff.2 hsegments)
  have hstart : engine.start rule.canonical current parent = engine.start rule current parent := by
    unfold start
    rw [hdefault, hpath]
    rfl
  have hkeep : ∀ v, keep rule.canonical v = keep rule v := by
    intro v
    unfold keep FieldRule.canonical
    rw [htarget]
  have htext : rule.canonical.target.text = rule.target.text := congrArg Path.text htarget
  unfold fieldValue
  rw [hstart, htext]
  simp only [hkeep]
  rfl

mutual

theorem evaluateRule_canonical (engine : Engine) : ∀ {rule : Rule},
    (∀ path ∈ rule.paths, path.segments ≠ [""]) → ∀ (current parent result : Value),
    engine.evaluateRule rule.canonical current parent result =
      engine.evaluateRule rule current parent result
  | .field rule, h, current, parent, result => by
    have htarget : rule.canonical.target = rule.target :=
      Path.canonical_eq_self_iff.2 (h _ (List.mem_append_right _ (List.mem_singleton.2 rfl)))
    rw [Rule.canonical, evaluateRule, evaluateRule, engine.fieldValue_canonical h, htarget]
  | .group rules, h, current, parent, result => by
    rw [Rule.canonical, evaluateRule, evaluateRule, evaluateRules_canonical engine h]
  | .loop source target rules action, h, current, parent, result => by
    obtain ⟨hsource, htarget, hrules⟩ := Rule.forall_mem_paths_loop.1 h
    rw [Rule.canonical, evaluateRule, evaluateRule, Path.canonical_eq_self_iff.2 hsource,
      Path.canonical_eq_self_iff.2 htarget]
    simp only [evaluateRules_canonical engine hrules]

theorem evaluateRules_canonical (engine : Engine) : ∀ {rules : List Rule},
    (∀ path ∈ Rule.pathsAll rules, path.segments ≠ [""]) → ∀ (current parent result : Value),
    engine.evaluateRules (Rule.canonicalAll rules) current parent result =
      engine.evaluateRules rules current parent result
  | [], _, current, parent, result => rfl
  | rule :: rest, h, current, parent, result => by
    obtain ⟨hrule, hrest⟩ := List.forall_mem_append.1 h
    rw [Rule.canonicalAll, evaluateRules, evaluateRules, evaluateRule_canonical engine hrule]
    simp only [evaluateRules_canonical engine hrest]

end

/-- Nulls as defaults make no difference to a run. -/
theorem run_canonical (engine : Engine) {mapping : Mapping}
    (h : ∀ path ∈ Rule.pathsAll mapping.rules, path.segments ≠ [""]) (source : Value)
    (session : Session) :
    engine.run mapping.canonical source session = engine.run mapping source session := by
  have hdocument : engine.document mapping.canonical source = engine.document mapping source := by
    unfold document Mapping.canonical
    rw [evaluateRules_canonical engine h, Rule.length_canonicalAll]
    rfl
  unfold run
  rw [hdocument]

end Engine

end PayloadMapping
