import PayloadMapping.Proofs.Mapping.Written

set_option autoImplicit false

/-!
# The grammar of rules

Which trees describe rules, said without the decoder: a loop or a group stands under the only key
of its node, and a field rule is made of fields that each say one thing. The decoder accepts what
the grammar describes, and gives the rule that is described.
-/

namespace PayloadMapping

namespace Decode

theorem flag_map_eq_ok {α : Type} {v : Value} {make : Bool → α} {a : α}
    (h : (flag v).map make = .ok a) : ∃ b, v = .bool b ∧ make b = a := by
  obtain ⟨b, hb, rfl⟩ := map_eq_ok h
  have hv : v = .bool b := by cases v <;> simp_all [flag, wrongType]
  exact ⟨b, hv, rfl⟩

end Decode

namespace Fields

variable {α : Type}

def last? (key : String) (fields : Fields α) : Option α := get? key fields.reverse

@[simp] theorem last?_append (key k : String) (v : α) (fields : Fields α) :
    last? key (fields ++ [(k, v)]) = if k = key then some v else last? key fields := by
  rw [last?, List.reverse_append]
  rfl

theorem last?_eq_none {key : String} {fields : Fields α} (h : key ∉ keys fields) :
    last? key fields = none := by
  have hreverse : key ∉ keys fields.reverse := by simpa [keys] using h
  rw [← contains_iff_mem_keys, contains, Option.not_isSome_iff_eq_none] at hreverse
  exact hreverse

end Fields

namespace FieldRule

/-- What may stand under each key of a field rule, and what it says. -/
inductive Says : String → Value → Slot → Prop
  | source (s : String) : Says "from" (.string s) (.source (some (Path.parse s)))
  | noSource : Says "from" .null (.source none)
  | target (s : String) : Says "to" (.string s) (.target (Path.parse s))
  | action {v : Value} {action : Action} (hv : v ≠ .null) (h : Action.decode v = .ok action) :
      Says "action" v (.action (some action))
  | noAction : Says "action" .null (.action none)
  | isOptional (b : Bool) : Says "is_optional" (.bool b) (.isOptional b)
  | addToCache (b : Bool) : Says "add_to_cache" (.bool b) (.addToCache b)
  | isUniqueId (b : Bool) : Says "is_unique_id" (.bool b) (.isUniqueId b)
  | fromParent (b : Bool) : Says "from_parent" (.bool b) (.fromParent b)
  | defaultValue {v : Value} (hv : v ≠ .null) : Says "default_value" v (.defaultValue (some v))
  | noDefault : Says "default_value" .null (.defaultValue none)

theorem Says.known {key : String} {v : Value} {slot : Slot} (h : Says key v slot) :
    key ∈ keys := by
  cases h <;> decide

theorem decodeSlot_ok_iff {key : String} {v : Value} {slot : Slot} :
    decodeSlot key v = .ok slot ↔ Says key v slot := by
  constructor
  · intro h
    by_cases hknown : key ∈ keys
    · rcases (mem_keys_iff key).1 hknown with rfl | rfl | rfl | rfl | rfl | rfl | rfl | rfl
      · obtain ⟨found, hfound, rfl⟩ := Decode.map_eq_ok h
        obtain ⟨rfl, rfl⟩ | ⟨-, path, hpath, rfl⟩ := Decode.optional_ok_iff.1 hfound
        · exact .noSource
        · obtain ⟨s, rfl, rfl⟩ := decodePath_ok_iff.1 hpath
          exact .source s
      · obtain ⟨path, hpath, rfl⟩ := Decode.map_eq_ok h
        obtain ⟨s, rfl, rfl⟩ := decodePath_ok_iff.1 hpath
        exact .target s
      · obtain ⟨found, hfound, rfl⟩ := Decode.map_eq_ok h
        obtain ⟨rfl, rfl⟩ | ⟨hv, action, haction, rfl⟩ := Decode.optional_ok_iff.1 hfound
        · exact .noAction
        · exact .action hv haction
      · obtain ⟨b, rfl, rfl⟩ := Decode.flag_map_eq_ok h
        exact .isOptional b
      · obtain ⟨b, rfl, rfl⟩ := Decode.flag_map_eq_ok h
        exact .addToCache b
      · obtain ⟨b, rfl, rfl⟩ := Decode.flag_map_eq_ok h
        exact .isUniqueId b
      · obtain ⟨b, rfl, rfl⟩ := Decode.flag_map_eq_ok h
        exact .fromParent b
      · obtain rfl := Except.ok.inj h
        by_cases hv : v = .null
        · subst hv
          exact .noDefault
        · rw [if_neg hv]
          exact .defaultValue hv
    · rw [decodeSlot_unknown hknown] at h
      cases h
  · intro h
    cases h with
    | @action v action hv h =>
      have hsome := Decode.optional_ok_iff.2 (.inr ⟨hv, action, h, rfl⟩)
      change (Decode.optional Action.decode v).map Slot.action = _
      rw [hsome]
      rfl
    | @defaultValue v hv =>
      change Except.ok (Slot.defaultValue (if v = .null then none else some v)) = _
      rw [if_neg hv]
    | _ => rfl

def pathAt (key : String) (fields : Fields Value) : Option Path :=
  match Fields.last? key fields with
  | some (.string s) => some (Path.parse s)
  | _ => none

def actionAt (key : String) (fields : Fields Value) : Option Action :=
  (Fields.last? key fields).bind fun v => (Action.decode v).toOption

def flagAt (key : String) (fields : Fields Value) : Bool :=
  decide (Fields.last? key fields = some (.bool true))

/-- Every field says something, `to` is there, and the rule is what the fields say. -/
structure Describes (fields : Fields Value) (rule : FieldRule) : Prop where
  each : ∀ field ∈ fields, ∃ slot, Says field.1 field.2 slot
  target : pathAt "to" fields = some rule.target
  source : rule.source = pathAt "from" fields
  action : rule.action = actionAt "action" fields
  isOptional : rule.isOptional = flagAt "is_optional" fields
  addToCache : rule.addToCache = flagAt "add_to_cache" fields
  isUniqueId : rule.isUniqueId = flagAt "is_unique_id" fields
  fromParent : rule.fromParent = flagAt "from_parent" fields
  defaultValue : rule.defaultValue = (Fields.last? "default_value" fields).filter (· ≠ .null)

def Parts.read (fields : Fields Value) : Parts where
  source := pathAt "from" fields
  target := pathAt "to" fields
  action := actionAt "action" fields
  isOptional := flagAt "is_optional" fields
  addToCache := flagAt "add_to_cache" fields
  isUniqueId := flagAt "is_unique_id" fields
  fromParent := flagAt "from_parent" fields
  defaultValue := (Fields.last? "default_value" fields).filter (· ≠ .null)

theorem ofParts_read_ok_iff {fields : Fields Value} {rule : FieldRule}
    (heach : ∀ field ∈ fields, ∃ slot, Says field.1 field.2 slot) :
    ofParts (Parts.read fields) = .ok rule ↔ Describes fields rule := by
  constructor
  · intro h
    unfold ofParts at h
    cases htarget : (Parts.read fields).target with
    | none =>
      rw [htarget] at h
      cases h
    | some target =>
      rw [htarget] at h
      obtain rfl := Except.ok.inj h
      exact ⟨heach, htarget, rfl, rfl, rfl, rfl, rfl, rfl, rfl⟩
  · obtain ⟨source, target, action, isOptional, addToCache, isUniqueId, fromParent, default⟩ := rule
    rintro ⟨-, htarget, rfl, rfl, rfl, rfl, rfl, rfl, rfl⟩
    have hread : (Parts.read fields).target = some target := htarget
    rw [ofParts, hread]
    rfl

theorem Says.read_append {key : String} {v : Value} {slot : Slot} (h : Says key v slot)
    (before : Fields Value) :
    Parts.read (before ++ [(key, v)]) = (Parts.read before).set slot := by
  cases h with
  | action _ h => simp [Parts.read, Parts.set, pathAt, actionAt, flagAt, h, Except.toOption]
  | defaultValue hv => simp [Parts.read, Parts.set, pathAt, actionAt, flagAt, hv]
  | isOptional b | addToCache b | isUniqueId b | fromParent b =>
    cases b <;> simp [Parts.read, Parts.set, pathAt, actionAt, flagAt]
  | noAction =>
    have hnull : (Action.decode .null).toOption = none := by
      rw [Action.decode, Action.decodeWithin]
      · rfl
      · simp
      · simp
      · simp
    simp [Parts.read, Parts.set, pathAt, actionAt, flagAt, hnull]
  | _ => simp [Parts.read, Parts.set, pathAt, actionAt, flagAt]

theorem foldl_set_read {fields : Fields Value} {slots : List Slot}
    (h : List.Forall₂ (fun field slot => Says field.1 field.2 slot) fields slots)
    (before : Fields Value) :
    slots.foldl Parts.set (Parts.read before) = Parts.read (before ++ fields) := by
  induction h generalizing before with
  | nil => rw [List.append_nil, List.foldl_nil]
  | @cons field slot rest slots hone _ ih =>
    rw [List.foldl_cons, ← hone.read_append, ih, List.append_assoc]
    rfl

theorem decode_ok_iff {fields : Fields Value} {rule : FieldRule} :
    decode fields = .ok rule ↔ Describes fields rule := by
  constructor
  · intro h
    obtain ⟨parts, hparts, hrule⟩ := Decode.bind_eq_ok h
    obtain ⟨slots, hslots, rfl⟩ := decodeParts_ok_iff.1 hparts
    have hsays := hslots.imp fun _ _ => decodeSlot_ok_iff.1
    have hread : slots.foldl Parts.set {} = Parts.read fields := foldl_set_read hsays []
    rw [hread] at hrule
    exact (ofParts_read_ok_iff (exists_of_forall₂ hsays)).1 hrule
  · intro h
    obtain ⟨slots, hsays⟩ := forall₂_of_exists h.each
    have hread : slots.foldl Parts.set {} = Parts.read fields := foldl_set_read hsays []
    have hparts := decodeParts_ok_iff.2 ⟨slots, hsays.imp fun _ _ => decodeSlot_ok_iff.2, hread⟩
    unfold decode
    rw [hparts]
    exact (ofParts_read_ok_iff h.each).2 h

theorem Describes.target_mem {fields : Fields Value} {rule : FieldRule}
    (h : Describes fields rule) : "to" ∈ Fields.keys fields := by
  by_contra hnone
  have htarget := h.target
  rw [pathAt, Fields.last?_eq_none hnone] at htarget
  cases htarget

theorem Describes.known {fields : Fields Value} {rule : FieldRule} (h : Describes fields rule) :
    ∀ key ∈ Fields.keys fields, key ∈ keys := by
  intro key hkey
  obtain ⟨field, hfield, rfl⟩ := List.mem_map.1 hkey
  obtain ⟨slot, hslot⟩ := h.each field hfield
  exact hslot.known

end FieldRule

namespace Rule

mutual

inductive Describes : Value → Rule → Prop
  | loop {body : Value} {rule : Rule} (h : DescribesLoop body rule) :
      Describes (.object [("for_each", body)]) rule
  | group {items : List Value} {rules : List Rule} (h : DescribesAll items rules) :
      Describes (.object [("field_set", .array items)]) (.group rules)
  | field {fields : List (String × Value)} {rule : FieldRule}
      (hloop : "for_each" ∉ Fields.keys fields) (hgroup : "field_set" ∉ Fields.keys fields)
      (h : FieldRule.Describes fields rule) : Describes (.object fields) (.field rule)

inductive DescribesAll : List Value → List Rule → Prop
  | nil : DescribesAll [] []
  | cons {v : Value} {rule : Rule} {items : List Value} {rules : List Rule}
      (h : Describes v rule) (hrest : DescribesAll items rules) :
      DescribesAll (v :: items) (rule :: rules)

/-- The tree describes the loop: as an object, or as a list of the parts in their order. -/
inductive DescribesLoop : Value → Rule → Prop
  | object {fields : List (String × Value)} {parts : LoopParts} {source target : Path}
      (h : LoopFields {} fields parts) (hsource : parts.source = some source)
      (htarget : parts.target = some target) :
      DescribesLoop (.object fields) (.loop source target parts.rules parts.action)
  | list {items : List Value} {parts : LoopParts} {source target : Path}
      (hlength : items.length ≤ loopKeys.length) (h : LoopFields {} (loopKeys.zip items) parts)
      (hsource : parts.source = some source) (htarget : parts.target = some target) :
      DescribesLoop (.array items) (.loop source target parts.rules parts.action)

inductive LoopFields : LoopParts → List (String × Value) → LoopParts → Prop
  | nil (parts : LoopParts) : LoopFields parts [] parts
  | cons {parts next last : LoopParts} {key : String} {v : Value} {rest : List (String × Value)}
      (h : LoopField parts key v next) (hrest : LoopFields next rest last) :
      LoopFields parts ((key, v) :: rest) last

inductive LoopField : LoopParts → String → Value → LoopParts → Prop
  | source (parts : LoopParts) (s : String) :
      LoopField parts "from" (.string s) { parts with source := some (Path.parse s) }
  | target (parts : LoopParts) (s : String) :
      LoopField parts "to" (.string s) { parts with target := some (Path.parse s) }
  | rules (parts : LoopParts) {items : List Value} {rules : List Rule}
      (h : DescribesAll items rules) :
      LoopField parts "field_set" (.array items) { parts with rules := rules }
  | action (parts : LoopParts) {v : Value} {action : Action} (hv : v ≠ .null)
      (h : Action.decode v = .ok action) :
      LoopField parts "action" v { parts with action := some action }
  | noAction (parts : LoopParts) : LoopField parts "action" .null { parts with action := none }

end

/-! ## The parts of loops -/

def decodeLoopField (parts : LoopParts) (key : String) (v : Value) :
    Except DecodeError LoopParts :=
  if key = "field_set" then do
    let rules ← decodeRules v
    .ok { parts with rules := rules }
  else decodeLoopPart parts key v

theorem decodeLoopFields_cons (parts : LoopParts) (key : String) (v : Value)
    (rest : List (String × Value)) :
    decodeLoopFields parts ((key, v) :: rest) =
      decodeLoopField parts key v >>= fun next => decodeLoopFields next rest := by
  rw [decodeLoopFields, decodeLoopField]
  split_ifs
  · cases decodeRules v <;> rfl
  · rfl

theorem decodeLoopItems_cons (parts : LoopParts) (key : String) (v : Value) (rest : List Value)
    (names : List String) :
    decodeLoopItems parts (v :: rest) (key :: names) =
      decodeLoopField parts key v >>= fun next => decodeLoopItems next rest names := by
  rw [decodeLoopItems, decodeLoopField]
  split_ifs
  · cases decodeRules v <;> rfl
  · rfl

theorem decodeLoopField_ok_iff {v : Value}
    (hrules : ∀ rules, decodeRules v = .ok rules ↔
      ∃ items, v = .array items ∧ DescribesAll items rules)
    {parts next : LoopParts} {key : String} :
    decodeLoopField parts key v = .ok next ↔ LoopField parts key v next := by
  constructor
  · intro h
    unfold decodeLoopField decodeLoopPart at h
    split_ifs at h with hset hfrom hto haction
    · obtain ⟨rules, hfound, hnext⟩ := Decode.bind_eq_ok h
      obtain ⟨items, rfl, hall⟩ := (hrules rules).1 hfound
      obtain rfl := Except.ok.inj hnext
      subst hset
      exact .rules parts hall
    · obtain ⟨path, hpath, hnext⟩ := Decode.bind_eq_ok h
      obtain ⟨s, rfl, rfl⟩ := FieldRule.decodePath_ok_iff.1 hpath
      obtain rfl := Except.ok.inj hnext
      subst hfrom
      exact .source parts s
    · obtain ⟨path, hpath, hnext⟩ := Decode.bind_eq_ok h
      obtain ⟨s, rfl, rfl⟩ := FieldRule.decodePath_ok_iff.1 hpath
      obtain rfl := Except.ok.inj hnext
      subst hto
      exact .target parts s
    · obtain ⟨action, hfound, hnext⟩ := Decode.bind_eq_ok h
      obtain rfl := Except.ok.inj hnext
      subst haction
      obtain ⟨rfl, rfl⟩ | ⟨hv, action, hdecoded, rfl⟩ := Decode.optional_ok_iff.1 hfound
      · exact .noAction parts
      · exact .action parts hv hdecoded
  · intro h
    cases h with
    | @rules _ items rules h =>
      rw [decodeLoopField, if_pos rfl, (hrules rules).2 ⟨items, rfl, h⟩]
      rfl
    | action _ hv h =>
      have hsome := Decode.optional_ok_iff.2 (.inr ⟨hv, _, h, rfl⟩)
      change (Decode.optional Action.decode v >>= _) = _
      rw [hsome]
      rfl
    | _ => rfl

theorem ofLoopParts_ok_iff {parts : LoopParts} {missing : Nat → String → DecodeError}
    {rule : Rule} : ofLoopParts parts missing = .ok rule ↔ ∃ source target,
      parts.source = some source ∧ parts.target = some target ∧
      rule = .loop source target parts.rules parts.action := by
  obtain ⟨source, target, rules, action⟩ := parts
  cases source <;> cases target <;> simp [ofLoopParts, eq_comm]

theorem expectNoMore_ok_iff {given : Nat} :
    expectNoMore given = .ok () ↔ given ≤ loopKeys.length := by
  change expectNoMore given = .ok () ↔ given ≤ 4
  unfold expectNoMore
  split <;> simp [*]

theorem loopFields_nil_iff {parts last : LoopParts} :
    LoopFields parts [] last ↔ parts = last := by
  constructor
  · rintro ⟨⟩
    rfl
  · rintro rfl
    exact .nil parts

/-! ## Trees -/

theorem expectAlone_ok_iff {key : String} {fields : List (String × Value)}
    (h : Fields.contains key fields = true) :
    expectAlone key fields = .ok () ↔ ∃ body, fields = [(key, body)] := by
  unfold expectAlone
  match fields with
  | [] => simp [Fields.contains, Fields.get?] at h
  | [(k, body)] =>
    obtain rfl : k = key := by
      by_contra hk
      simp [Fields.contains, Fields.get?, hk] at h
    simp
  | _ :: _ :: _ => simp

/-- An object decodes as a loop, as a group or as a field rule, by its keys. -/
theorem decode_object_ok_iff {fields : List (String × Value)} {rule : Rule} :
    decode (.object fields) = .ok rule ↔
      (∃ body, fields = [("for_each", body)] ∧ decodeLoop body = .ok rule) ∨
      (∃ body rules, fields = [("field_set", body)] ∧ decodeRules body = .ok rules ∧
        rule = .group rules) ∨
      ("for_each" ∉ Fields.keys fields ∧ "field_set" ∉ Fields.keys fields ∧
        ∃ field, FieldRule.decode fields = .ok field ∧ rule = .field field) := by
  constructor
  · intro h
    rw [decode] at h
    split_ifs at h with hloop hgroup
    · obtain ⟨_, halone, hsole⟩ := Decode.bind_eq_ok h
      obtain ⟨body, rfl⟩ := (expectAlone_ok_iff hloop).1 halone
      rw [decodeSole, if_pos rfl] at hsole
      exact .inl ⟨body, rfl, hsole⟩
    · obtain ⟨_, halone, hsole⟩ := Decode.bind_eq_ok h
      obtain ⟨body, rfl⟩ := (expectAlone_ok_iff hgroup).1 halone
      rw [decodeSole, if_neg (by decide)] at hsole
      obtain ⟨rules, hrules, rfl⟩ := Decode.map_eq_ok hsole
      exact .inr (.inl ⟨body, rules, rfl, hrules, rfl⟩)
    · rw [Fields.contains_iff_mem_keys] at hloop hgroup
      obtain ⟨field, hfield, rfl⟩ := Decode.map_eq_ok h
      exact .inr (.inr ⟨hloop, hgroup, field, hfield, rfl⟩)
  · rintro (⟨body, rfl, h⟩ | ⟨body, rules, rfl, h, rfl⟩ | ⟨hloop, hgroup, field, h, rfl⟩)
    · rw [decode]
      change decodeSole _ = _
      rw [decodeSole, if_pos rfl]
      exact h
    · rw [decode]
      change decodeSole _ = _
      rw [decodeSole, if_neg (by decide), h]
      rfl
    · rw [← Fields.contains_iff_mem_keys] at hloop hgroup
      rw [decode, if_neg hloop, if_neg hgroup, h]
      rfl

mutual

/-- The decoder of rules accepts exactly the trees that describe rules. -/
theorem decode_ok_iff : ∀ {v : Value} {rule : Rule}, decode v = .ok rule ↔ Describes v rule
  | .object fields, rule => by
    have hbodies := @decodeBodies_ok_iff fields
    rw [decode_object_ok_iff]
    constructor
    · rintro (⟨body, rfl, h⟩ | ⟨body, rules, rfl, h, rfl⟩ | ⟨hloop, hgroup, field, h, rfl⟩)
      · exact .loop ((hbodies _ List.mem_cons_self).1.1 h)
      · obtain ⟨items, rfl, hall⟩ := (hbodies _ List.mem_cons_self).2.1 h
        exact .group hall
      · exact .field hloop hgroup (FieldRule.decode_ok_iff.1 h)
    · intro h
      cases h with
      | loop h => exact .inl ⟨_, rfl, (hbodies _ List.mem_cons_self).1.2 h⟩
      | group h =>
        exact .inr (.inl ⟨_, _, rfl, (hbodies _ List.mem_cons_self).2.2 ⟨_, rfl, h⟩, rfl⟩)
      | field hloop hgroup h =>
        exact .inr (.inr ⟨hloop, hgroup, _, FieldRule.decode_ok_iff.2 h, rfl⟩)
  | .null, _ | .bool _, _ | .number _, _ | .string _, _ | .array _, _ => by
    rw [decode]
    · exact iff_of_false (by simp) (by rintro ⟨⟩)
    · simp

theorem decodeBodies_ok_iff : ∀ {fields : List (String × Value)}, ∀ field ∈ fields,
    (∀ {rule : Rule}, decodeLoop field.2 = .ok rule ↔ DescribesLoop field.2 rule) ∧
    ∀ {rules : List Rule}, decodeRules field.2 = .ok rules ↔
      ∃ items, field.2 = .array items ∧ DescribesAll items rules
  | [] => by simp
  | (key, body) :: rest => by
    have hrest := @decodeBodies_ok_iff rest
    exact List.forall_mem_cons.2 ⟨⟨decodeLoop_ok_iff, decodeRules_ok_iff⟩, hrest⟩

theorem decodeRules_ok_iff : ∀ {v : Value} {rules : List Rule},
    decodeRules v = .ok rules ↔ ∃ items, v = .array items ∧ DescribesAll items rules
  | .array items, rules => by
    rw [decodeRules, decodeAll_ok_iff]
    simp
  | .null, _ | .bool _, _ | .number _, _ | .string _, _ | .object _, _ => by
    rw [decodeRules]
    · simp [Decode.wrongType]
    · simp

theorem decodeAll_ok_iff : ∀ {items : List Value} {rules : List Rule},
    decodeAll items = .ok rules ↔ DescribesAll items rules
  | [], rules => by
    rw [decodeAll]
    constructor
    · intro h
      obtain rfl := Except.ok.inj h
      exact .nil
    · rintro ⟨⟩
      rfl
  | v :: rest, rules => by
    rw [decodeAll]
    constructor
    · intro h
      obtain ⟨rule, hrule, hmore⟩ := Decode.bind_eq_ok h
      obtain ⟨more, hrest, hrules⟩ := Decode.bind_eq_ok hmore
      obtain rfl := Except.ok.inj hrules
      exact .cons (decode_ok_iff.1 hrule) (decodeAll_ok_iff.1 hrest)
    · rintro (_ | ⟨h, hrest⟩)
      rw [decode_ok_iff.2 h, decodeAll_ok_iff.2 hrest]
      rfl

theorem decodeLoop_ok_iff : ∀ {v : Value} {rule : Rule},
    decodeLoop v = .ok rule ↔ DescribesLoop v rule
  | .object fields, rule => by
    rw [decodeLoop]
    constructor
    · intro h
      obtain ⟨parts, hparts, hrule⟩ := Decode.bind_eq_ok h
      obtain ⟨source, target, hsource, htarget, rfl⟩ := ofLoopParts_ok_iff.1 hrule
      exact .object (decodeLoopFields_ok_iff.1 hparts) hsource htarget
    · rintro (⟨h, hsource, htarget⟩ | _)
      rw [decodeLoopFields_ok_iff.2 h]
      change ofLoopParts _ (fun _ name => .missingField name) = _
      exact ofLoopParts_ok_iff.2 ⟨_, _, hsource, htarget, rfl⟩
  | .array items, rule => by
    rw [decodeLoop]
    constructor
    · intro h
      obtain ⟨parts, hparts, hmore⟩ := Decode.bind_eq_ok h
      obtain ⟨found, hfound, hend⟩ := Decode.bind_eq_ok hmore
      obtain ⟨_, hlength, hrule⟩ := Decode.bind_eq_ok hend
      obtain rfl := Except.ok.inj hrule
      obtain ⟨source, target, hsource, htarget, rfl⟩ := ofLoopParts_ok_iff.1 hfound
      exact .list (expectNoMore_ok_iff.1 hlength) (decodeLoopItems_ok_iff.1 hparts) hsource htarget
    · rintro (_ | ⟨hlength, h, hsource, htarget⟩)
      rw [decodeLoopItems_ok_iff.2 h]
      change (ofLoopParts _ (fun position _ => loopTooShort position) >>= _) = _
      rw [ofLoopParts_ok_iff.2 ⟨_, _, hsource, htarget, rfl⟩]
      change (expectNoMore items.length >>= _) = _
      rw [expectNoMore_ok_iff.2 hlength]
      rfl
  | .null, _ | .bool _, _ | .number _, _ | .string _, _ => by
    rw [decodeLoop]
    · exact iff_of_false (by simp [Decode.wrongType]) (by rintro ⟨⟩)
    · simp
    · simp

theorem decodeLoopFields_ok_iff : ∀ {fields : List (String × Value)} {parts last : LoopParts},
    decodeLoopFields parts fields = .ok last ↔ LoopFields parts fields last
  | [], parts, last => by
    rw [decodeLoopFields, loopFields_nil_iff]
    simp
  | (key, v) :: rest, parts, last => by
    have hfield := @decodeLoopField_ok_iff v (fun _ => decodeRules_ok_iff)
    rw [decodeLoopFields_cons]
    constructor
    · intro h
      obtain ⟨next, hnext, hrest⟩ := Decode.bind_eq_ok h
      exact .cons (hfield.1 hnext) (decodeLoopFields_ok_iff.1 hrest)
    · rintro (_ | ⟨h, hrest⟩)
      rw [hfield.2 h]
      exact decodeLoopFields_ok_iff.2 hrest

theorem decodeLoopItems_ok_iff : ∀ {items : List Value} {names : List String}
    {parts last : LoopParts},
    decodeLoopItems parts items names = .ok last ↔ LoopFields parts (names.zip items) last
  | [], names, parts, last => by
    rw [decodeLoopItems, List.zip_nil_right, loopFields_nil_iff]
    · simp
    · simp
  | _ :: _, [], parts, last => by
    rw [decodeLoopItems, List.zip_nil_left, loopFields_nil_iff]
    · simp
    · simp
  | v :: rest, key :: names, parts, last => by
    have hfield := @decodeLoopField_ok_iff v (fun _ => decodeRules_ok_iff)
    rw [decodeLoopItems_cons, List.zip_cons_cons]
    constructor
    · intro h
      obtain ⟨next, hnext, hrest⟩ := Decode.bind_eq_ok h
      exact .cons (hfield.1 hnext) (decodeLoopItems_ok_iff.1 hrest)
    · rintro (_ | ⟨h, hrest⟩)
      rw [hfield.2 h]
      exact decodeLoopItems_ok_iff.2 hrest

end

end Rule

end PayloadMapping
