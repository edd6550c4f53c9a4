import PayloadMapping.Action.Decode
import PayloadMapping.Mapping.Outline
import PayloadMapping.Proofs.Value.Keys

set_option autoImplicit false

/-!
# Written actions

What is written of an action decodes to the action.
-/

namespace PayloadMapping.Action

open Outline

def writtenParameters : Action → List (String × Value)
  | .affix _ part meaning separator =>
    (separator.map fun s => ("separator", .string s)).toList
      ++ [("value", .string part), ("value_type", .string meaning.name)]
  | .sum lists key => [("fields", .string lists), ("key", .string key)]
  | .valueIn values lists =>
    (lists.map fun s => ("fields", .string s)).toList
      ++ if values.isEmpty then [] else [("values", .array values)]
  | .extractIndex index inRange =>
    [("index", .number (.whole index (inWholeRange_of_inSignedRange inRange)))]
  | .listToDict key => [("key", .string key)]
  | .flat strategy key join =>
    (join.map fun s => ("join", .string s)).toList
      ++ (key.map fun s => ("key", .string s)).toList ++ [("strategy", .string strategy.name)]
  | .cast target => [("to", .string target.name)]
  | .default fallback => [("value", fallback)]
  | .chain actions => [("actions", .array (toValues (outlines actions)))]
  | .capitalise | .text _ | .reserved _ => []

theorem perm_writtenParameters (action : Action) :
    (toFields action.parameterFields).Perm action.writtenParameters := by
  cases action with
  | affix side part meaning separator =>
    cases separator with
    | none => exact .refl _
    | some s =>
      have hmoved : ([("value", .string part), ("value_type", .string meaning.name)] ++
          [("separator", .string s)] : Fields Value).Perm
          ([("separator", .string s)] ++ [("value", .string part), ("value_type", _)]) :=
        List.perm_append_comm
      exact hmoved
  | valueIn values lists =>
    cases values <;> cases lists <;> first | exact .refl _ | exact .swap _ _ _
  | flat strategy key join =>
    cases key <;> cases join
    · exact .refl _
    · exact .swap _ _ _
    · exact .swap _ _ _
    · exact (List.reverse_perm _).symm
  | _ => exact .refl _

theorem pairwise_writtenParameters (action : Action) :
    ("action_type" :: Fields.keys action.writtenParameters).Pairwise (· < ·) := by
  have hclosed : ∀ keys ∈ [[], ["value", "value_type"], ["separator", "value", "value_type"],
      ["fields", "key"], ["fields"], ["values"], ["fields", "values"], ["index"], ["key"],
      ["strategy"], ["join", "strategy"], ["key", "strategy"], ["join", "key", "strategy"], ["to"],
      ["value"], ["actions"]], ("action_type" :: keys).Pairwise (· < ·) := by decide
  apply hclosed
  cases action with
  | affix side part meaning separator => cases separator <;> simp [writtenParameters, Fields.keys]
  | valueIn values lists =>
    cases values <;> cases lists <;> simp [writtenParameters, Fields.keys]
  | flat strategy key join =>
    cases key <;> cases join <;> simp [writtenParameters, Fields.keys]
  | _ => simp [writtenParameters, Fields.keys]

theorem toValue_outline (action : Action) :
    action.outline.toValue =
      .object (("action_type", .string action.name) :: action.writtenParameters) := by
  have hperm : (("action_type", Value.string action.name) :: toFields action.parameterFields).Perm
      (("action_type", .string action.name) :: action.writtenParameters) :=
    (perm_writtenParameters action).cons _
  exact congrArg Value.object (Fields.sorted_eq_of_perm hperm (pairwise_writtenParameters action))

theorem choose_name (entry : Entry) : Decode.choose Entry.named entry.name = .ok entry := by
  cases entry <;> rfl

theorem decodeArgument_plain {parameter : Parameter} (h : parameter.kind ≠ .actions)
    (arguments : Arguments) (v : Value) :
    decodeArgument parameter arguments v =
      decodePlain parameter.name parameter.kind v arguments := by
  obtain ⟨name, kind⟩ := parameter
  cases v with
  | array items =>
    rw [decodeArgument]
    cases kind with
    | actions => exact absurd rfl h
    | _ => rfl
  | null | bool _ | number _ | string _ | object _ =>
    rw [decodeArgument]
    · cases kind with
      | actions => exact absurd rfl h
      | _ => rfl
    · simp

/-- Decoding the parameters of entries that have no chain among them. -/
def decodePlainFields (entry : Entry) (arguments : Arguments) :
    List (String × Value) → Except DecodeError Arguments
  | [] => .ok arguments
  | (name, v) :: rest =>
    match parameter? entry name with
    | none => decodePlainFields entry arguments rest
    | some parameter => do
      let arguments ← decodePlain parameter.name parameter.kind v arguments
      decodePlainFields entry arguments rest

theorem decodeFields_eq_plain {entry : Entry} (hchain : entry ≠ .chain) (arguments : Arguments)
    (fields : List (String × Value)) :
    decodeFields entry arguments fields = decodePlainFields entry arguments fields := by
  have hplain : ∀ parameter ∈ entry.parameters, parameter.kind ≠ .actions := by
    cases entry with
    | chain => exact absurd rfl hchain
    | _ => decide
  induction fields generalizing arguments with
  | nil => rw [decodeFields, decodePlainFields]
  | cons field rest ih =>
    obtain ⟨name, v⟩ := field
    rw [decodeFields, decodePlainFields]
    cases hfound : parameter? entry name with
    | none => exact ih arguments
    | some parameter =>
      have hkind := hplain parameter (List.mem_of_find?_eq_some hfound)
      simp only [decodeArgument_plain hkind, ih]

theorem decodeWithin_object (inChain : Bool) (entry : Entry) (fields : List (String × Value)) :
    decodeWithin inChain (.object (("action_type", .string entry.name) :: fields)) = (do
      let arguments ← decodeFields entry {} fields
      build entry arguments fun _ name => .missingField name) := by
  have hentry : decodeEntry inChain (.string entry.name) = .ok entry := choose_name entry
  have hunknown : parameter? entry "action_type" = none := by cases entry <;> rfl
  rw [decodeWithin]
  change (decodeEntry inChain (.string entry.name) >>= _) = _
  rw [hentry]
  change (decodeFields entry {} (("action_type", _) :: fields) >>= _) = _
  rw [decodeFields, hunknown]

theorem build_writtenParameters (action : Action) (h : action.entry ≠ .chain) :
    (do
      let arguments ← decodePlainFields action.entry {} action.writtenParameters
      build action.entry arguments fun _ name => .missingField name) = .ok action := by
  cases action with
  | affix side part meaning separator =>
    cases side <;> cases meaning <;> cases separator <;> rfl
  | valueIn values lists => cases values <;> cases lists <;> rfl
  | extractIndex index inRange =>
    have hindex : decodeIndex (.number (.whole index
        ⟨inRange.1, Int.lt_trans inRange.2 (by decide)⟩)) = .ok ⟨index, inRange⟩ := dif_pos inRange
    change (((decodeIndex _ >>= _) >>= _) >>= _) = _
    rw [hindex]
    rfl
  | flat strategy key join => cases strategy <;> cases key <;> cases join <;> rfl
  | cast target => cases target <;> rfl
  | text change => cases change <;> rfl
  | reserved entry => cases entry <;> rfl
  | chain actions => exact absurd rfl h
  | sum _ _ | capitalise | listToDict _ | default _ => rfl

theorem decodeWithin_plain (inChain : Bool) {action : Action} (h : action.entry ≠ .chain) :
    decodeWithin inChain action.outline.toValue = .ok action := by
  rw [toValue_outline, name, decodeWithin_object]
  simp only [decodeFields_eq_plain h]
  exact build_writtenParameters action h

mutual

/-- Decoding undoes the writing of an action. -/
theorem decodeWithin_outline (inChain : Bool) : ∀ action : Action,
    decodeWithin inChain action.outline.toValue = .ok action
  | .chain actions => by
    have hparameter : parameter? .chain "actions" = some ⟨"actions", .actions⟩ := rfl
    rw [toValue_outline, name, decodeWithin_object]
    change (decodeFields .chain {} [("actions", .array (toValues (outlines actions)))] >>= _) = _
    rw [decodeFields, hparameter]
    dsimp only
    rw [decodeArgument]
    dsimp only
    rw [decodeChain_outlines actions]
    change (decodeFields .chain { actions := some actions } [] >>= _) = _
    rw [decodeFields]
    rfl
  | .affix .after _ _ _ | .affix .before _ _ _ | .sum _ _ | .capitalise | .valueIn _ _
  | .extractIndex _ _ | .listToDict _ | .flat _ _ _ | .cast _ | .text .upper | .text .lower
  | .text .trim | .default _ | .reserved .divide | .reserved .multiply | .reserved .customEval =>
    decodeWithin_plain inChain (by simp [entry])

theorem decodeChain_outlines : ∀ actions : List Action,
    decodeChain (toValues (outlines actions)) = .ok actions
  | [] => by
    rw [outlines, toValues, decodeChain]
  | action :: rest => by
    rw [outlines, toValues, decodeChain]
    change (decodeWithin true action.outline.toValue >>= _) = _
    rw [decodeWithin_outline true action]
    change (decodeChain (toValues (outlines rest)) >>= _) = _
    rw [decodeChain_outlines rest]
    rfl

end

theorem decode_outline (action : Action) : decode action.outline.toValue = .ok action :=
  decodeWithin_outline false action

theorem optional_outline (action : Action) :
    Decode.optional decode action.outline.toValue = .ok (some action) := by
  have hdecoded := decode_outline action
  rw [toValue_outline] at hdecoded ⊢
  change (decode (.object _)).map some = _
  rw [hdecoded]
  rfl

end PayloadMapping.Action
