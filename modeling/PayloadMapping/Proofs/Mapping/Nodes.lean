import Mathlib.Logic.Relation
import PayloadMapping.Proofs.Mapping.Grammar

set_option autoImplicit false

/-!
# The nodes of a mapping

A tree that decodes as a mapping holds further nodes: rules, the bodies of loops, actions and the
parts of chains. What is below an accepted node is accepted too, so what holds of every accepted
node holds at every depth.
-/

namespace PayloadMapping

/-- What a node is read as. Inside a chain actions are named in more ways. -/
inductive Role where
  | mapping | rule | loop
  | action (inChain : Bool)

structure Subtree where
  role : Role
  tree : Value

/-- The keys of an action: the one that names the entry, and the parameters of the entry. -/
def Entry.keys (entry : Entry) : List String :=
  "action_type" :: entry.parameters.map Parameter.name

def Action.entryOf (inChain : Bool) : Value → Option Entry
  | .object fields =>
    (Fields.get? "action_type" fields).bind fun name => (decodeEntry inChain name).toOption
  | .array (name :: _) => (decodeEntry inChain name).toOption
  | _ => none

namespace Subtree

/-- The node decodes as what it is read as. -/
def Accepted : Subtree → Prop
  | ⟨.mapping, tree⟩ => ∃ mapping, Mapping.decode tree = .ok mapping
  | ⟨.rule, tree⟩ => ∃ rule, Rule.decode tree = .ok rule
  | ⟨.loop, tree⟩ => ∃ rule, Rule.decodeLoop tree = .ok rule
  | ⟨.action inChain, tree⟩ => ∃ action, Action.decodeWithin inChain tree = .ok action

def keys : Subtree → List String
  | ⟨.mapping, _⟩ => Mapping.keys
  | ⟨.rule, _⟩ => "for_each" :: "field_set" :: FieldRule.keys
  | ⟨.loop, _⟩ => Rule.loopKeys
  | ⟨.action inChain, tree⟩ => (Action.entryOf inChain tree).elim [] Entry.keys

/-- The parts of a node with their keys. A list has them in the order of the keys. -/
def parts (node : Subtree) : Fields Value :=
  match node.tree with
  | .object fields => fields
  | .array items => node.keys.zip items
  | _ => []

inductive Child : Subtree → Subtree → Prop
  | rule {parent : Subtree} {items : List Value} {v : Value}
      (hrole : ∀ inChain, parent.role ≠ .action inChain)
      (hpart : ("field_set", .array items) ∈ parent.parts) (hv : v ∈ items) :
      Child parent ⟨.rule, v⟩
  | body {tree v : Value} (hpart : ("for_each", v) ∈ parts ⟨.rule, tree⟩) :
      Child ⟨.rule, tree⟩ ⟨.loop, v⟩
  | action {parent : Subtree} {v : Value} (hrole : parent.role = .rule ∨ parent.role = .loop)
      (hpart : ("action", v) ∈ parent.parts) (hv : v ≠ .null) : Child parent ⟨.action false, v⟩
  | chained {inChain : Bool} {tree v : Value} {items : List Value}
      (hentry : Action.entryOf inChain tree = some .chain)
      (hpart : ("actions", .array items) ∈ parts ⟨.action inChain, tree⟩) (hv : v ∈ items) :
      Child ⟨.action inChain, tree⟩ ⟨.action true, v⟩

def Within : Subtree → Subtree → Prop := Relation.ReflTransGen Child

end Subtree

namespace Rule

/-- The keys of a node that gives the rule. A loop or a group has no key but its own; a field
rule has its target, and no key that is not one of field rules. -/
def HasKeys (keys : List String) : Rule → Prop
  | .loop _ _ _ _ => keys = ["for_each"]
  | .group _ => keys = ["field_set"]
  | .field _ => "to" ∈ keys ∧ ∀ key ∈ keys, key ∈ FieldRule.keys

theorem object_of_decode {tree : Value} {rule : Rule} (h : decode tree = .ok rule) :
    ∃ fields, tree = .object fields ∧ rule.HasKeys (Fields.keys fields) := by
  cases decode_ok_iff.1 h with
  | loop hbody =>
    refine ⟨_, rfl, ?_⟩
    cases hbody <;> rfl
  | group => exact ⟨_, rfl, rfl⟩
  | field _ _ hfield => exact ⟨_, rfl, hfield.target_mem, hfield.known⟩

end Rule

/-! ## Each part decodes -/

theorem Rule.decode_of_decodeAll {items : List Value} {rules : List Rule}
    (h : decodeAll items = .ok rules) : ∀ v ∈ items, ∃ rule, decode v = .ok rule := by
  induction items generalizing rules with
  | nil => simp
  | cons v rest ih =>
    rw [decodeAll] at h
    obtain ⟨rule, hrule, hmore⟩ := Decode.bind_eq_ok h
    obtain ⟨more, hrest, -⟩ := Decode.bind_eq_ok hmore
    exact List.forall_mem_cons.2 ⟨⟨rule, hrule⟩, ih hrest⟩

theorem Rule.decode_of_decodeRules {items : List Value} {rules : List Rule}
    (h : decodeRules (.array items) = .ok rules) : ∀ v ∈ items, ∃ rule, decode v = .ok rule := by
  rw [decodeRules] at h
  exact decode_of_decodeAll h

theorem Rule.loopFields_of_decodeLoop {tree : Value} {rule : Rule}
    (h : decodeLoop tree = .ok rule) :
    ∃ last, LoopFields {} (Subtree.parts ⟨.loop, tree⟩) last := by
  cases decodeLoop_ok_iff.1 h with
  | object hfields => exact ⟨_, hfields⟩
  | list _ hfields => exact ⟨_, hfields⟩

theorem Rule.LoopFields.each {parts last : LoopParts} {fields : List (String × Value)}
    (h : LoopFields parts fields last) :
    ∀ field ∈ fields, ∃ before after, LoopField before field.1 field.2 after := by
  induction fields generalizing parts with
  | nil => simp
  | cons field rest ih =>
    cases h with
    | cons hfield hrest => exact List.forall_mem_cons.2 ⟨⟨_, _, hfield⟩, ih hrest⟩

theorem Rule.LoopField.rules_of_key {before after : LoopParts} {key : String} {v : Value}
    (h : LoopField before key v after) (hkey : key = "field_set") :
    ∃ rules, decodeRules v = .ok rules := by
  cases h with
  | rules _ hall => exact ⟨_, decodeRules_ok_iff.2 ⟨_, rfl, hall⟩⟩
  | _ => exact absurd hkey (by decide)

theorem Rule.LoopField.action_of_key {before after : LoopParts} {key : String} {v : Value}
    (h : LoopField before key v after) (hkey : key = "action") (hv : v ≠ .null) :
    ∃ action, Action.decode v = .ok action := by
  cases h with
  | action _ _ haction => exact ⟨_, haction⟩
  | noAction => exact absurd rfl hv
  | _ => exact absurd hkey (by decide)

theorem FieldRule.Says.action_of_key {key : String} {v : Value} {slot : Slot}
    (h : Says key v slot) (hkey : key = "action") (hv : v ≠ .null) :
    ∃ action, Action.decode v = .ok action := by
  cases h with
  | action _ haction => exact ⟨_, haction⟩
  | noAction => exact absurd rfl hv
  | _ => exact absurd hkey (by decide)

namespace Mapping

theorem decodeField_of_decodeFields {mapping result : Mapping} {fields : List (String × Value)}
    (h : decodeFields mapping fields = .ok result) :
    ∀ field ∈ fields, ∃ before after, decodeField before field.1 field.2 = .ok after := by
  induction fields generalizing mapping with
  | nil => simp
  | cons field rest ih =>
    obtain ⟨next, hnext, hrest⟩ := Decode.bind_eq_ok h
    exact List.forall_mem_cons.2 ⟨⟨mapping, next, hnext⟩, ih hrest⟩

theorem decodeFields_of_decode {tree : Value} {mapping : Mapping} (h : decode tree = .ok mapping) :
    decodeFields { rules := [] } (Subtree.parts ⟨.mapping, tree⟩) = .ok mapping := by
  cases tree with
  | object fields => exact h
  | array items =>
    obtain ⟨found, hfound, hend⟩ := Decode.bind_eq_ok h
    split_ifs at hend
    obtain rfl := Except.ok.inj hend
    exact hfound
  | _ => cases h

end Mapping

namespace Action

theorem decodeWithin_of_decodeChain {items : List Value} {actions : List Action}
    (h : decodeChain items = .ok actions) :
    ∀ v ∈ items, ∃ action, decodeWithin true v = .ok action := by
  induction items generalizing actions with
  | nil => simp
  | cons v rest ih =>
    rw [decodeChain] at h
    obtain ⟨action, haction, hmore⟩ := Decode.bind_eq_ok h
    obtain ⟨more, hrest, -⟩ := Decode.bind_eq_ok hmore
    exact List.forall_mem_cons.2 ⟨⟨action, haction⟩, ih hrest⟩

theorem decodeArgument_of_decodeFields {entry : Entry} {arguments result : Arguments}
    {fields : List (String × Value)} (h : decodeFields entry arguments fields = .ok result) :
    ∀ field ∈ fields, ∀ parameter ∈ parameter? entry field.1, ∃ before after,
      decodeArgument parameter before field.2 = .ok after := by
  induction fields generalizing arguments with
  | nil => simp
  | cons field rest ih =>
    obtain ⟨name, v⟩ := field
    rw [decodeFields] at h
    cases hfound : parameter? entry name with
    | none =>
      rw [hfound] at h
      refine List.forall_mem_cons.2 ⟨?_, ih h⟩
      intro parameter hparameter
      rw [hfound] at hparameter
      cases hparameter
    | some parameter =>
      rw [hfound] at h
      obtain ⟨next, hnext, hrest⟩ := Decode.bind_eq_ok h
      refine List.forall_mem_cons.2 ⟨?_, ih hrest⟩
      intro other hother
      rw [hfound] at hother
      obtain rfl := Option.some.inj hother
      exact ⟨arguments, next, hnext⟩

theorem entryOf_object {inChain : Bool} {fields : List (String × Value)} {entry : Entry} :
    entryOf inChain (.object fields) = some entry ↔ ∃ name,
      Fields.get? "action_type" fields = some name ∧ decodeEntry inChain name = .ok entry := by
  rw [entryOf]
  cases Fields.get? "action_type" fields with
  | none => simp
  | some name => cases hname : decodeEntry inChain name <;> simp [Except.toOption, hname]

theorem entryOf_list {inChain : Bool} {name : Value} {items : List Value} {entry : Entry} :
    entryOf inChain (.array (name :: items)) = some entry ↔
      decodeEntry inChain name = .ok entry := by
  rw [entryOf]
  cases decodeEntry inChain name <;> simp [Except.toOption]

/-- An object is an action if it names an entry and has the parameters of the entry. -/
theorem decodeWithin_object_ok_iff {inChain : Bool} {fields : List (String × Value)}
    {action : Action} : decodeWithin inChain (.object fields) = .ok action ↔
      ∃ entry arguments, entryOf inChain (.object fields) = some entry ∧
        decodeFields entry {} fields = .ok arguments ∧
        build entry arguments (fun _ name => .missingField name) = .ok action := by
  simp only [entryOf_object]
  constructor
  · intro h
    rw [decodeWithin] at h
    obtain ⟨name, hname, h⟩ := Decode.bind_eq_ok h
    obtain ⟨entry, hentry, h⟩ := Decode.bind_eq_ok h
    obtain ⟨arguments, harguments, h⟩ := Decode.bind_eq_ok h
    refine ⟨entry, arguments, ⟨name, ?_, hentry⟩, harguments, h⟩
    cases hget : Fields.get? "action_type" fields with
    | none =>
      rw [hget] at hname
      cases hname
    | some found =>
      rw [hget] at hname
      obtain rfl := Except.ok.inj hname
      rfl
  · rintro ⟨entry, arguments, ⟨name, hname, hentry⟩, harguments, h⟩
    rw [decodeWithin, hname]
    change (decodeEntry inChain name >>= _) = _
    rw [hentry]
    change (decodeFields entry {} fields >>= _) = _
    rw [harguments]
    exact h

theorem list_of_decodeWithin {inChain : Bool} {items : List Value} {action : Action}
    (h : decodeWithin inChain (.array items) = .ok action) : ∃ name given entry arguments,
      items = name :: given ∧ decodeEntry inChain name = .ok entry ∧
      decodeItems {} given entry.parameters = .ok arguments ∧
      given.length ≤ entry.parameters.length := by
  cases items with
  | nil =>
    rw [decodeWithin] at h
    cases h
  | cons name given =>
    rw [decodeWithin] at h
    obtain ⟨entry, hentry, h⟩ := Decode.bind_eq_ok h
    obtain ⟨arguments, harguments, h⟩ := Decode.bind_eq_ok h
    obtain ⟨_, _, h⟩ := Decode.bind_eq_ok h
    obtain ⟨_, hlength, -⟩ := Decode.bind_eq_ok h
    unfold expectNoMore at hlength
    split_ifs at hlength with hle
    exact ⟨name, given, entry, arguments, rfl, hentry, harguments, hle⟩

theorem decodeChain_of_decodeArgument {before after : Arguments} {items : List Value}
    (h : decodeArgument ⟨"actions", .actions⟩ before (.array items) = .ok after) :
    ∃ actions, decodeChain items = .ok actions := by
  rw [decodeArgument] at h
  obtain ⟨actions, hactions, -⟩ := Decode.bind_eq_ok h
  exact ⟨actions, hactions⟩

theorem decodeChain_of_decodeWithin {inChain : Bool} {tree : Value} {action : Action}
    {items : List Value} (h : decodeWithin inChain tree = .ok action)
    (hentry : entryOf inChain tree = some .chain)
    (hpart : ("actions", .array items) ∈ Subtree.parts ⟨.action inChain, tree⟩) :
    ∃ actions, decodeChain items = .ok actions := by
  cases tree with
  | object fields =>
    obtain ⟨entry, arguments, hfound, harguments, -⟩ := decodeWithin_object_ok_iff.1 h
    obtain rfl : entry = .chain := Option.some.inj (hfound.symm.trans hentry)
    obtain ⟨before, after, hdecoded⟩ :=
      decodeArgument_of_decodeFields harguments _ hpart ⟨"actions", .actions⟩ rfl
    exact decodeChain_of_decodeArgument hdecoded
  | array all =>
    obtain ⟨name, given, entry, arguments, rfl, hname, harguments, -⟩ := list_of_decodeWithin h
    obtain rfl : entry = .chain := Option.some.inj ((entryOf_list.2 hname).symm.trans hentry)
    simp only [Subtree.parts, Subtree.keys, hentry] at hpart
    obtain hfirst | hrest := List.mem_cons.1 hpart
    · exact absurd (Prod.mk.inj hfirst).1 (by decide)
    · cases given with
      | nil => cases hrest
      | cons v rest =>
        obtain hv | hnone := List.mem_cons.1 hrest
        · obtain rfl := (Prod.mk.inj hv).2
          rw [Entry.parameters, decodeItems] at harguments
          obtain ⟨next, hnext, -⟩ := Decode.bind_eq_ok harguments
          exact decodeChain_of_decodeArgument hnext
        · cases hnone
  | _ => cases hpart

end Action

namespace Subtree

variable {parent node : Subtree}

theorem Accepted.rules (h : parent.Accepted) (hrole : ∀ inChain, parent.role ≠ .action inChain)
    {items : List Value} (hpart : ("field_set", .array items) ∈ parent.parts) :
    ∃ rules, Rule.decodeRules (.array items) = .ok rules := by
  obtain ⟨role, tree⟩ := parent
  cases role with
  | mapping =>
    obtain ⟨mapping, hmapping⟩ := h
    obtain ⟨before, after, hfield⟩ := Mapping.decodeField_of_decodeFields
      (Mapping.decodeFields_of_decode hmapping) _ hpart
    obtain ⟨rules, hrules, -⟩ := Decode.bind_eq_ok hfield
    exact ⟨rules, hrules⟩
  | rule =>
    obtain ⟨rule, hrule⟩ := h
    obtain ⟨fields, rfl, -⟩ := Rule.object_of_decode hrule
    obtain ⟨body, rfl, -⟩ | ⟨body, rules, rfl, hrules, -⟩ | ⟨-, hnone, -⟩ :=
      Rule.decode_object_ok_iff.1 hrule
    · exact absurd (Prod.mk.inj (List.mem_singleton.1 hpart)).1 (by decide)
    · obtain rfl := (Prod.mk.inj (List.mem_singleton.1 hpart)).2
      exact ⟨rules, hrules⟩
    · exact absurd (List.mem_map_of_mem hpart) hnone
  | loop =>
    obtain ⟨rule, hrule⟩ := h
    obtain ⟨last, hfields⟩ := Rule.loopFields_of_decodeLoop hrule
    obtain ⟨before, after, hfield⟩ := hfields.each _ hpart
    exact hfield.rules_of_key rfl
  | action inChain => exact absurd rfl (hrole inChain)

theorem Accepted.action (h : parent.Accepted) (hrole : parent.role = .rule ∨ parent.role = .loop)
    {v : Value} (hpart : ("action", v) ∈ parent.parts) (hv : v ≠ .null) :
    ∃ action, Action.decode v = .ok action := by
  obtain ⟨role, tree⟩ := parent
  cases role with
  | rule =>
    obtain ⟨rule, hrule⟩ := h
    obtain ⟨fields, rfl, -⟩ := Rule.object_of_decode hrule
    obtain ⟨body, rfl, -⟩ | ⟨body, rules, rfl, -⟩ | ⟨-, -, field, hfield, -⟩ :=
      Rule.decode_object_ok_iff.1 hrule
    · exact absurd (Prod.mk.inj (List.mem_singleton.1 hpart)).1 (by decide)
    · exact absurd (Prod.mk.inj (List.mem_singleton.1 hpart)).1 (by decide)
    · obtain ⟨slot, hslot⟩ := (FieldRule.decode_ok_iff.1 hfield).each _ hpart
      exact hslot.action_of_key rfl hv
  | loop =>
    obtain ⟨rule, hrule⟩ := h
    obtain ⟨last, hfields⟩ := Rule.loopFields_of_decodeLoop hrule
    obtain ⟨before, after, hfield⟩ := hfields.each _ hpart
    exact hfield.action_of_key rfl hv
  | _ => rcases hrole with hrole | hrole <;> cases hrole

/-- What is directly below an accepted node is accepted. -/
theorem Child.accepted (h : Child parent node) (hparent : parent.Accepted) : node.Accepted := by
  cases h with
  | rule hrole hpart hv =>
    obtain ⟨rules, hrules⟩ := hparent.rules hrole hpart
    exact Rule.decode_of_decodeRules hrules _ hv
  | @body tree v hpart =>
    obtain ⟨rule, hrule⟩ := hparent
    obtain ⟨fields, rfl, -⟩ := Rule.object_of_decode hrule
    obtain ⟨body, rfl, hbody⟩ | ⟨body, rules, rfl, -⟩ | ⟨hnone, -⟩ :=
      Rule.decode_object_ok_iff.1 hrule
    · obtain rfl := (Prod.mk.inj (List.mem_singleton.1 hpart)).2
      exact ⟨rule, hbody⟩
    · exact absurd (Prod.mk.inj (List.mem_singleton.1 hpart)).1 (by decide)
    · exact absurd (List.mem_map_of_mem hpart) hnone
  | action hrole hpart hv => exact hparent.action hrole hpart hv
  | chained hentry hpart hv =>
    obtain ⟨action, haction⟩ := hparent
    obtain ⟨actions, hactions⟩ := Action.decodeChain_of_decodeWithin haction hentry hpart
    exact Action.decodeWithin_of_decodeChain hactions _ hv

theorem Within.accepted (h : Within parent node) (hparent : parent.Accepted) : node.Accepted := by
  induction h with
  | refl => exact hparent
  | tail _ hchild ih => exact hchild.accepted ih

end Subtree

namespace Rule

/-- The decoder of rules accepts exactly what the grammar describes and gives what it describes,
and at every depth a node that is accepted as a rule has no key besides those of its rule. -/
theorem decode_iff_describes (tree : Value) :
    (∀ rule, decode tree = .ok rule ↔ Describes tree rule) ∧
    (∀ rule, decodeLoop tree = .ok rule ↔ DescribesLoop tree rule) ∧
    ∀ rule, decode tree = .ok rule → ∀ node, Subtree.Within ⟨.rule, tree⟩ ⟨.rule, node⟩ →
      ∃ fields found, node = .object fields ∧ decode node = .ok found ∧
        found.HasKeys (Fields.keys fields) := by
  refine ⟨fun _ => decode_ok_iff, fun _ => decodeLoop_ok_iff, ?_⟩
  intro rule hrule node hwithin
  obtain ⟨found, hfound⟩ := hwithin.accepted ⟨rule, hrule⟩
  obtain ⟨fields, hfields, hkeys⟩ := object_of_decode hfound
  exact ⟨fields, found, hfields, hfound, hkeys⟩

/-- A loop over legs with one field rule in it. -/
theorem decode_iff_describes_legs :
    let leg : Value := .object [("from", .string "code"), ("to", .string "carrier")]
    let tree : Value := .object [("for_each", .object
      [("field_set", .array [leg]), ("from", .string "segments"), ("to", .string "legs")])]
    let copied := FieldRule.copy (Path.parse "code") (Path.parse "carrier")
    let rule := Rule.loop (Path.parse "segments") (Path.parse "legs") [.field copied] none
    Describes tree rule ∧ decode tree = .ok rule ∧
      ∃ fields found, leg = .object fields ∧ decode leg = .ok found ∧
        found.HasKeys (Fields.keys fields) := by
  intro leg tree copied rule
  have hcopied : FieldRule.Describes [("from", .string "code"), ("to", .string "carrier")] copied :=
    FieldRule.decode_ok_iff.1 rfl
  have hleg : Describes leg (.field copied) := .field (by decide) (by decide) hcopied
  have htree : Describes tree rule :=
    .loop (.object (.cons (.rules _ (.cons hleg .nil)) (.cons (.source _ _) (.cons (.target _ _)
      (.nil _)))) rfl rfl)
  have hwithin : Subtree.Within ⟨.rule, tree⟩ ⟨.rule, leg⟩ :=
    .tail (.single (.body List.mem_cons_self))
      (.rule (by simp) List.mem_cons_self List.mem_cons_self)
  obtain ⟨haccepts, -, hnodes⟩ := decode_iff_describes tree
  have hdecode := (haccepts rule).2 htree
  exact ⟨htree, hdecode, hnodes rule hdecode leg hwithin⟩

end Rule
end PayloadMapping
