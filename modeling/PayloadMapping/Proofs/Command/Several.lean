import PayloadMapping.Proofs.Command.Stages
import PayloadMapping.Proofs.Evaluation.Schema
import PayloadMapping.Proofs.Json.Indented

set_option autoImplicit false

/-!
# Several inputs

A transform of several inputs does what as many transforms of one input each do: it succeeds if
all of them do, and then prints the list of what they print, in order.
-/

namespace PayloadMapping

theorem Engine.run_object {engine : Engine} {mapping : Mapping} {source document : Value}
    {session reached : Session} (h : engine.run mapping source session = (.ok document, reached)) :
    ∃ fields, document = .object fields := by
  have hdocument : Eval.Yields (engine.document mapping source)
      (Fills (Rule.targetsAll mapping.rules) []) :=
    (Eval.Yields.any _).bind fun _ _ => evaluateRules_fills engine mapping.rules source source []
  obtain ⟨fields, hfields, _⟩ := hdocument session document (congrArg Prod.fst h)
  exact ⟨fields, hfields⟩

namespace Command

/-- What is printed is the JSON text of the value, and of no other. -/
def Outcome.Prints (outcome : Outcome) (value : Value) : Prop :=
  ∀ v : Value, outcome.printed = v.indented ++ "\n" ↔ v = value

theorem Outcome.prints_of_printed {outcome : Outcome} {value : Value}
    (h : outcome.printed = value.indented ++ "\n") : outcome.Prints value := by
  intro v
  rw [h]
  constructor
  · intro htext
    have hchars : value.indented.toList ++ ['\n'] = v.indented.toList ++ ['\n'] := by
      simpa using congrArg String.toList htext
    have hsame := List.append_cancel_right hchars
    exact (Value.indented_injective (String.toList_inj.1 hsame)).symm
  · rintro rfl
    rfl

variable {files : Files} {engine : Engine} {mapping : Mapping} {report : Bool}

theorem Gives.object {input : String} {result : Value}
    (h : Gives files engine mapping report input result) : ∃ fields, result = .object fields := by
  obtain ⟨payload, document, session, _, hrun, rfl⟩ := h
  cases report with
  | true => exact ⟨_, rfl⟩
  | false => exact Engine.run_object hrun

variable {request : TransformRequest}

theorem transform_of_gives {results : List Value} (houtput : request.output = none)
    (hmapping : loadMapping files request.mapping = .ok mapping)
    (hengine : loadEngine files request = .ok engine)
    (h : List.Forall₂ (Gives files engine mapping request.report) request.inputs results) :
    (transform files request).exit = 0 ∧ (transform files request).Prints (combine results) := by
  obtain ⟨notices, hran⟩ := transform_of_ready ⟨mapping, engine, hmapping, hengine, h⟩
  rw [hran, houtput]
  exact ⟨rfl, Outcome.prints_of_printed rfl⟩

theorem gives_of_transform (h : (transform files request).exit = 0) :
    ∃ mapping engine results, loadMapping files request.mapping = .ok mapping ∧
      loadEngine files request = .ok engine ∧
      List.Forall₂ (Gives files engine mapping request.report) request.inputs results := by
  obtain ⟨_, failure, notices, hran⟩ | ⟨results, _, ⟨mapping, engine, hready⟩, _⟩ :=
    transform_cases files request
  · rw [hran] at h
    cases h
  · exact ⟨mapping, engine, results, hready⟩

theorem combine_of_two_le {results : List Value} (h : 2 ≤ results.length) :
    combine results = .array results := by
  match results, h with
  | _ :: _ :: _, _ => rfl

/-- A transform of two or more inputs, printed and not written to a file, succeeds exactly if the
transform of each input alone does. Then it prints a list with a value for every input, in the
order of the inputs: the object that the transform of that input alone prints. -/
theorem transform_several_as_single (files : Files) (request : TransformRequest)
    (houtput : request.output = none) (htwo : 2 ≤ request.inputs.length) :
    let alone input := transform files { request with inputs := [input] }
    let together := transform files request
    (together.exit = 0 ↔ ∀ input ∈ request.inputs, (alone input).exit = 0) ∧
    (together.exit = 0 → ∃ results : List Value, together.Prints (.array results) ∧
      List.Forall₂ (fun input result =>
        (∃ fields, result = .object fields) ∧ (alone input).Prints result)
        request.inputs results) := by
  intro alone together
  have halone : ∀ {mapping engine input result}, loadMapping files request.mapping = .ok mapping →
      loadEngine files request = .ok engine →
      Gives files engine mapping request.report input result →
      (alone input).exit = 0 ∧ (alone input).Prints result := by
    intro mapping engine input result hmapping hengine hgives
    let single : TransformRequest := { request with inputs := [input] }
    have hprinted : single.output = none := houtput
    exact transform_of_gives hprinted hmapping hengine (.cons hgives .nil)
  refine ⟨⟨fun h input hinput => ?_, fun h => ?_⟩, fun h => ?_⟩
  · obtain ⟨mapping, engine, results, hmapping, hengine, hgives⟩ := gives_of_transform h
    obtain ⟨result, hone⟩ := exists_of_forall₂ hgives input hinput
    exact (halone hmapping hengine hone).1
  · obtain ⟨first, hfirst⟩ := List.exists_mem_of_length_pos (Nat.lt_of_lt_of_le two_pos htwo)
    obtain ⟨mapping, engine, _, hmapping, hengine, _⟩ := gives_of_transform (h first hfirst)
    -- every input alone finds the mapping and the engine that the first finds
    have hall : ∀ input ∈ request.inputs, ∃ result,
        Gives files engine mapping request.report input result := by
      intro input hinput
      obtain ⟨mapping', engine', results, hmapping', hengine', hgives⟩ :=
        gives_of_transform (h input hinput)
      obtain rfl : mapping = mapping' := Except.ok.inj (hmapping.symm.trans hmapping')
      obtain rfl : engine = engine' := Except.ok.inj (hengine.symm.trans hengine')
      cases hgives with
      | cons hone _ => exact ⟨_, hone⟩
    obtain ⟨results, hgives⟩ := forall₂_of_exists hall
    exact (transform_of_gives houtput hmapping hengine hgives).1
  · obtain ⟨mapping, engine, results, hmapping, hengine, hgives⟩ := gives_of_transform h
    have hprinted := (transform_of_gives houtput hmapping hengine hgives).2
    rw [combine_of_two_le (hgives.length_eq ▸ htwo)] at hprinted
    refine ⟨results, hprinted, hgives.imp fun input result hone => ?_⟩
    exact ⟨hone.object, (halone hmapping hengine hone).2⟩

/-- Three inputs, of which the last is the first again. -/
theorem transform_several_as_single_repeated :
    let directory : Directory :=
      [("legs.json", "\x7b\"field_set\":[\x7b\"from\":\"a\",\"to\":\"b\"\x7d]\x7d"),
        ("one.json", "\x7b\"a\":1\x7d"), ("two.json", "\x7b\"a\":2\x7d")]
    let request : TransformRequest :=
      { inputs := ["one.json", "two.json", "one.json"], mapping := "legs.json", output := none,
        config := none, providerAttributes := none, strict := false, report := false }
    let together := transform directory.files request
    request.output = none ∧ 2 ≤ request.inputs.length ∧ together.exit = 0 ∧
      ∃ results : List Value, results.length = 3 ∧ together.Prints (.array results) := by
  intro directory request together
  have htwo : 2 ≤ request.inputs.length := by decide
  have hexit : together.exit = 0 := by decide +kernel
  obtain ⟨_, hsingle⟩ := transform_several_as_single directory.files request rfl htwo
  obtain ⟨results, hprints, hresults⟩ := hsingle hexit
  exact ⟨rfl, htwo, hexit, results, hresults.length_eq.symm, hprints⟩

end Command

end PayloadMapping
