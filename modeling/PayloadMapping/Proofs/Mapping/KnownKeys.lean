import PayloadMapping.Proofs.Mapping.Nodes

set_option autoImplicit false

/-!
# The keys of accepted nodes

Mappings, rules and the bodies of loops have no keys but their own. Actions may have others, and
those do nothing: the action is the one of the remaining fields.
-/

namespace PayloadMapping

theorem Fields.get?_filter {α : Type} {keep : String → Bool} {key : String}
    (h : keep key = true) (fields : Fields α) :
    get? key (fields.filter fun field => keep field.1) = get? key fields := by
  induction fields with
  | nil => rfl
  | cons field rest ih =>
    obtain ⟨k, v⟩ := field
    by_cases hk : k = key
    · subst hk
      simp [get?, h]
    · cases hkeep : keep k <;> simp [get?, hkeep, hk, ih]

def Entry.own (entry : Entry) (fields : Fields Value) : Fields Value :=
  fields.filter fun field => entry.keys.contains field.1

namespace Action

theorem parameter?_eq_none {entry : Entry} {name : String} (h : name ∉ entry.keys) :
    parameter? entry name = none := by
  refine List.find?_eq_none.2 ?_
  intro parameter hparameter hname
  obtain rfl : parameter.name = name := by simpa using hname
  exact h (List.mem_cons_of_mem _ (List.mem_map_of_mem hparameter))

theorem decodeFields_own (entry : Entry) (arguments : Arguments)
    (fields : List (String × Value)) :
    decodeFields entry arguments (entry.own fields) = decodeFields entry arguments fields := by
  induction fields generalizing arguments with
  | nil => rfl
  | cons field rest ih =>
    obtain ⟨name, v⟩ := field
    rw [decodeFields]
    by_cases hname : name ∈ entry.keys
    · have hown : entry.own ((name, v) :: rest) = (name, v) :: entry.own rest :=
        List.filter_cons_of_pos (by simpa using hname)
      rw [hown, decodeFields]
      cases parameter? entry name with
      | none => exact ih arguments
      | some parameter => simp only [ih]
    · have hown : entry.own ((name, v) :: rest) = entry.own rest :=
        List.filter_cons_of_neg (by simpa using hname)
      rw [hown, parameter?_eq_none hname]
      exact ih arguments

/-- Fields with other keys than those of the entry do not count. -/
theorem decodeWithin_own {inChain : Bool} {fields : List (String × Value)} {entry : Entry}
    (h : entryOf inChain (.object fields) = some entry) :
    decodeWithin inChain (.object (entry.own fields)) = decodeWithin inChain (.object fields) := by
  obtain ⟨name, hname, hentry⟩ := entryOf_object.1 h
  have hown : Fields.get? "action_type" (entry.own fields) = some name := by
    rw [Entry.own, Fields.get?_filter (by simp [Entry.keys]), hname]
  rw [decodeWithin, decodeWithin, hname, hown]
  change (decodeEntry inChain name >>= _) = (decodeEntry inChain name >>= _)
  rw [hentry]
  change (decodeFields entry {} (entry.own fields) >>= _) = (decodeFields entry {} fields >>= _)
  rw [decodeFields_own]

end Action

theorem Mapping.key_of_decodeField {before after : Mapping} {key : String} {v : Value}
    (h : decodeField before key v = .ok after) : key ∈ keys := by
  unfold decodeField at h
  split_ifs at h with hname hrules
  · rw [hname]
    exact List.mem_cons_self
  · rw [hrules]
    exact List.mem_cons_of_mem _ List.mem_cons_self

theorem Rule.LoopField.known {before after : LoopParts} {key : String} {v : Value}
    (h : LoopField before key v after) : key ∈ loopKeys := by
  cases h <;> decide

namespace Subtree

/-- What is known of the keys of an accepted node. Rules are objects; the others may be lists, no
longer than there are keys. -/
def Keyed : Subtree → Prop
  | ⟨.rule, tree⟩ => ∃ fields rule, tree = .object fields ∧ Rule.decode tree = .ok rule ∧
      rule.HasKeys (Fields.keys fields)
  | ⟨.action inChain, .object fields⟩ => ∃ entry,
      Action.entryOf inChain (.object fields) = some entry ∧
      Action.decodeWithin inChain (.object (entry.own fields)) =
        Action.decodeWithin inChain (.object fields)
  | ⟨role, .object fields⟩ => ∀ key ∈ Fields.keys fields, key ∈ keys ⟨role, .object fields⟩
  | ⟨role, .array items⟩ => items.length ≤ (keys ⟨role, .array items⟩).length
  | _ => False

theorem Accepted.keyed {node : Subtree} (h : node.Accepted) : node.Keyed := by
  obtain ⟨role, tree⟩ := node
  cases role with
  | mapping =>
    obtain ⟨mapping, hmapping⟩ := h
    have hfields := Mapping.decodeField_of_decodeFields (Mapping.decodeFields_of_decode hmapping)
    cases tree with
    | object fields =>
      intro key hkey
      obtain ⟨field, hfield, rfl⟩ := List.mem_map.1 hkey
      obtain ⟨before, after, hdecoded⟩ := hfields field hfield
      exact Mapping.key_of_decodeField hdecoded
    | array items =>
      obtain ⟨found, -, hend⟩ := Decode.bind_eq_ok hmapping
      split_ifs at hend with hlength
      exact hlength
    | _ => cases hmapping
  | rule =>
    obtain ⟨rule, hrule⟩ := h
    obtain ⟨fields, rfl, hkeys⟩ := Rule.object_of_decode hrule
    exact ⟨fields, rule, rfl, hrule, hkeys⟩
  | loop =>
    obtain ⟨rule, hrule⟩ := h
    obtain ⟨last, hparts⟩ := Rule.loopFields_of_decodeLoop hrule
    cases Rule.decodeLoop_ok_iff.1 hrule with
    | object =>
      intro key hkey
      obtain ⟨field, hfield, rfl⟩ := List.mem_map.1 hkey
      obtain ⟨before, after, hsaid⟩ := hparts.each field hfield
      exact hsaid.known
    | list hlength => exact hlength
  | action inChain =>
    obtain ⟨action, haction⟩ := h
    cases tree with
    | object fields =>
      obtain ⟨entry, arguments, hentry, -⟩ := Action.decodeWithin_object_ok_iff.1 haction
      exact ⟨entry, hentry, Action.decodeWithin_own hentry⟩
    | array items =>
      obtain ⟨name, given, entry, arguments, rfl, hname, -, hlength⟩ :=
        Action.list_of_decodeWithin haction
      have hkeys : keys ⟨.action inChain, .array (name :: given)⟩ = entry.keys := by
        rw [keys, Action.entryOf_list.2 hname]
        rfl
      change (name :: given).length ≤ (keys ⟨.action inChain, .array (name :: given)⟩).length
      rw [hkeys]
      simpa [Entry.keys] using hlength
    | null | bool _ | number _ | string _ =>
      rw [Action.decodeWithin] at haction
      · cases haction
      · simp
      · simp
      · simp

end Subtree

namespace Mapping

/-- In an accepted mapping no node but the actions has a key that is not one of its own, and what
actions have under other keys does nothing. -/
theorem keyed_of_decode {tree : Value} {mapping : Mapping} (h : decode tree = .ok mapping)
    {node : Subtree} (hwithin : Subtree.Within ⟨.mapping, tree⟩ node) : node.Keyed :=
  (hwithin.accepted ⟨mapping, h⟩).keyed

/-- A chain below a loop, with a trim in it that has a key too many. -/
theorem keyed_of_decode_chained :
    let trim : Value := .object [("action_type", .string "trim"), ("sides", .string "left")]
    let chain : Value := .object [("action_type", .string "chain"), ("actions", .array [trim])]
    let tree : Value := .object [("field_set", .array [.object [("for_each", .object
      [("action", chain), ("from", .string "segments"), ("to", .string "legs")])]])]
    let trims := Action.chain [.text .trim]
    let loop := Rule.loop (Path.parse "segments") (Path.parse "legs") [] (some trims)
    decode tree = .ok ⟨none, [loop]⟩ ∧ Subtree.Within ⟨.mapping, tree⟩ ⟨.action true, trim⟩ ∧
      Subtree.Keyed ⟨.action true, trim⟩ := by
  intro trim chain tree trims loop
  have hdecode : decode tree = .ok ⟨none, [loop]⟩ := rfl
  have hbody : Subtree.Within ⟨.mapping, tree⟩ ⟨.loop, _⟩ :=
    .tail (.single (.rule (by simp) List.mem_cons_self List.mem_cons_self))
      (.body List.mem_cons_self)
  have hchain : Subtree.Within ⟨.mapping, tree⟩ ⟨.action false, chain⟩ :=
    hbody.tail (.action (.inr rfl) List.mem_cons_self (by simp [chain]))
  have hwithin : Subtree.Within ⟨.mapping, tree⟩ ⟨.action true, trim⟩ :=
    hchain.tail (.chained rfl (List.mem_cons_of_mem _ List.mem_cons_self) List.mem_cons_self)
  exact ⟨hdecode, hwithin, keyed_of_decode hdecode hwithin⟩

/-- A misspelt parameter is accepted and its value is lost. -/
theorem decode_misspelt :
    let action : Value := .object
      [("action_type", .string "append"), ("seperator", .string "-"), ("value", .string "x")]
    let tree : Value := .object
      [("field_set", .array [.object [("action", action), ("to", .string "a")]])]
    let appends := Action.affix .after "x" .constant none
    let rule : FieldRule := { source := none, target := Path.parse "a", action := some appends }
    decode tree = .ok ⟨none, [.field rule]⟩ ∧
      Subtree.Within ⟨.mapping, tree⟩ ⟨.action false, action⟩ ∧
      Action.entryOf false action = some .append ∧ "seperator" ∉ Entry.append.keys := by
  intro action tree appends rule
  have hwithin : Subtree.Within ⟨.mapping, tree⟩ ⟨.action false, action⟩ :=
    .tail (.single (.rule (by simp) List.mem_cons_self List.mem_cons_self))
      (.action (.inl rfl) List.mem_cons_self (by simp [action]))
  exact ⟨rfl, hwithin, rfl, by decide⟩

end Mapping

end PayloadMapping
