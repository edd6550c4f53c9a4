import PayloadMapping.Command.Run
import PayloadMapping.Proofs.Mapping.Field

set_option autoImplicit false

/-!
# The stages of a transform

A transform loads its mapping, the attributes and the payloads, evaluates the mapping for every
payload, and hands over what came out. The first stage that fails ends it, with nothing handed
over; so a transform ends in one of two ways.
-/

namespace PayloadMapping.Command

def Gives (files : Files) (engine : Engine) (mapping : Mapping) (report : Bool) (input : String)
    (result : Value) : Prop :=
  ∃ payload document session, loadPayload files input = .ok payload ∧
    engine.run mapping payload {} = (.ok document, session) ∧
    result = if report then reportValue document session.context else document

def Ready (files : Files) (request : TransformRequest) (results : List Value) : Prop :=
  ∃ mapping engine, loadMapping files request.mapping = .ok mapping ∧
    loadEngine files request = .ok engine ∧
    List.Forall₂ (Gives files engine mapping request.report) request.inputs results

/-- A stage of a transform fails before there is anything to hand over. -/
inductive Blocked (files : Files) (request : TransformRequest) : Prop
  | mapping {e : Failure} (hmapping : loadMapping files request.mapping = .error e)
  | attributes {path : String} {e : Failure}
      (hgiven : request.config = some path ∨ request.providerAttributes = some path)
      (hattributes : loadAttributes files path = .error e)
  | payload {input : String} {e : Failure} (hinput : input ∈ request.inputs)
      (hpayload : loadPayload files input = .error e)
  | evaluation {input : String} {mapping : Mapping} {engine : Engine} {payload : Value}
      {e : EngineError} {session : Session} (hinput : input ∈ request.inputs)
      (hmapping : loadMapping files request.mapping = .ok mapping)
      (hengine : loadEngine files request = .ok engine)
      (hpayload : loadPayload files input = .ok payload)
      (hrun : engine.run mapping payload {} = (.error e, session))

variable {files : Files} {request : TransformRequest} {engine : Engine} {mapping : Mapping}
  {report : Bool}

/-! ## Loading -/

theorem registerFrom_cases (files : Files) (path : Option String) (scope : String)
    (providers : Providers) :
    (∃ registered, registerFrom files path scope providers = .ok registered ∧
      ∀ given ∈ path, ∃ attributes, loadAttributes files given = .ok attributes) ∨
    (∃ e, registerFrom files path scope providers = .error e) ∧
      ∃ given ∈ path, ∃ e, loadAttributes files given = .error e := by
  cases path with
  | none => exact .inl ⟨providers, rfl, by simp⟩
  | some given =>
    cases hload : loadAttributes files given with
    | error e =>
      refine .inr ⟨⟨e, ?_⟩, given, rfl, e, hload⟩
      simp only [registerFrom, bind, Except.bind, hload]
    | ok attributes =>
      refine .inl ⟨providers.register scope (.ofFields attributes), ?_, ?_⟩
      · simp only [registerFrom, bind, Except.bind, hload]
      · rintro _ ⟨⟩
        exact ⟨attributes, hload⟩

theorem loadEngine_cases (files : Files) (request : TransformRequest) :
    (∃ engine, loadEngine files request = .ok engine ∧
      ∀ path, request.config = some path ∨ request.providerAttributes = some path →
        ∃ attributes, loadAttributes files path = .ok attributes) ∨
    (∃ e, loadEngine files request = .error e) ∧
      ∃ path, (request.config = some path ∨ request.providerAttributes = some path) ∧
        ∃ e, loadAttributes files path = .error e := by
  unfold loadEngine
  obtain ⟨providers, hfirst, hconfig⟩ | ⟨⟨e, hfirst⟩, path, hpath, hfails⟩ :=
    registerFrom_cases files request.config configScope []
  · obtain ⟨all, hsecond, hinstance⟩ | ⟨⟨e, hsecond⟩, path, hpath, hfails⟩ :=
      registerFrom_cases files request.providerAttributes instanceScope providers
    · let engine : Engine := { providers := all, config := { failOnActionError := request.strict } }
      refine .inl ⟨engine, by simp only [bind, Except.bind, hfirst, hsecond, engine], ?_⟩
      rintro path (hpath | hpath)
      · exact hconfig path hpath
      · exact hinstance path hpath
    · exact .inr ⟨⟨e, by simp only [bind, Except.bind, hfirst, hsecond]⟩, path, .inr hpath, hfails⟩
  · exact .inr ⟨⟨e, by simp only [bind, Except.bind, hfirst]⟩, path, .inl hpath, hfails⟩

theorem loadPayloads_cons (files : Files) (input : String) (rest : List String) :
    loadPayloads files (input :: rest) = (do
      let payload ← loadPayload files input
      let payloads ← loadPayloads files rest
      .ok ((input, payload) :: payloads)) := by
  unfold loadPayloads
  rw [List.mapM_cons]
  cases loadPayload files input <;> rfl

theorem loadPayloads_cases (files : Files) (inputs : List String) :
    (∃ payloads, loadPayloads files inputs = .ok payloads ∧
      List.Forall₂ (fun input payload => payload.1 = input ∧
        loadPayload files input = .ok payload.2) inputs payloads) ∨
    (∃ e, loadPayloads files inputs = .error e) ∧
      ∃ input ∈ inputs, ∃ e, loadPayload files input = .error e := by
  induction inputs with
  | nil => exact .inl ⟨[], rfl, .nil⟩
  | cons input rest ih =>
    rw [loadPayloads_cons]
    cases hfirst : loadPayload files input with
    | error e => exact .inr ⟨⟨e, rfl⟩, input, List.mem_cons_self, e, hfirst⟩
    | ok payload =>
      obtain ⟨payloads, hload, hall⟩ | ⟨⟨e, hload⟩, other, hother, hfails⟩ := ih
      · rw [hload]
        exact .inl ⟨(input, payload) :: payloads, rfl, .cons ⟨rfl, hfirst⟩ hall⟩
      · rw [hload]
        exact .inr ⟨⟨e, rfl⟩, other, List.mem_cons_of_mem _ hother, hfails⟩

/-! ## Evaluating -/

theorem gives_unique : Relator.RightUnique (Gives files engine mapping report) := by
  rintro input first second ⟨payload, document, session, hload, hrun, rfl⟩
    ⟨payload', document', session', hload', hrun', rfl⟩
  obtain rfl := Except.ok.inj (hload.symm.trans hload')
  obtain ⟨hdocument, rfl⟩ := Prod.mk.inj (hrun.symm.trans hrun')
  obtain rfl := Except.ok.inj hdocument
  rfl

theorem transformAll_cases (engine : Engine) (mapping : Mapping) (report : Bool)
    {inputs : List String} {payloads : List (String × Value)}
    (h : List.Forall₂ (fun input payload => payload.1 = input ∧
      loadPayload files input = .ok payload.2) inputs payloads) :
    (∃ results notices, transformAll engine mapping report payloads = (.ok results, notices) ∧
      List.Forall₂ (Gives files engine mapping report) inputs results) ∨
    (∃ failure notices,
        transformAll engine mapping report payloads = (.error failure, notices)) ∧
      ∃ input ∈ inputs, ∃ payload e session, loadPayload files input = .ok payload ∧
        engine.run mapping payload {} = (.error e, session) := by
  induction h with
  | nil => exact .inl ⟨[], [], rfl, .nil⟩
  | @cons input payload rest payloads hfirst _ ih =>
    obtain ⟨name, payload⟩ := payload
    obtain ⟨rfl, hload⟩ := hfirst
    rw [transformAll]
    split
    · rename_i e session hrun
      exact .inr ⟨⟨_, _, rfl⟩, name, List.mem_cons_self, payload, e, session, hload, hrun⟩
    · rename_i document session hrun
      obtain ⟨results, notices, hall, hgives⟩ | ⟨⟨failure, notices, hall⟩, other, hother, hfails⟩ :=
        ih
      · rw [hall]
        exact .inl ⟨_, _, rfl, .cons ⟨payload, document, session, hload, hrun, rfl⟩ hgives⟩
      · rw [hall]
        exact .inr ⟨⟨_, _, rfl⟩, other, List.mem_cons_of_mem _ hother, hfails⟩

def outputText (results : List Value) : String := (combine results).indented ++ "\n"

/-- A transform fails because a stage does, or it hands over all results. -/
theorem transform_cases (files : Files) (request : TransformRequest) :
    (Blocked files request ∧
      ∃ failure notices, transform files request = failed failure notices) ∨
    ∃ results notices, Ready files request results ∧
      transform files request = deliver files request.output (outputText results) notices := by
  unfold transform load
  cases hmapping : loadMapping files request.mapping with
  | error e => exact .inl ⟨.mapping hmapping, e, [], rfl⟩
  | ok mapping =>
    obtain ⟨engine, hengine, -⟩ | ⟨⟨e, hengine⟩, path, hpath, e', hfails⟩ :=
      loadEngine_cases files request
    · rw [hengine]
      obtain ⟨payloads, hloads, hall⟩ | ⟨⟨e, hloads⟩, input, hinput, e', hfails⟩ :=
        loadPayloads_cases files request.inputs
      · rw [hloads]
        obtain ⟨results, notices, hran, hgives⟩ |
            ⟨⟨failure, notices, hran⟩, input, hinput, payload, e, session, hload, hrun⟩ :=
          transformAll_cases engine mapping request.report hall
        · refine .inr ⟨results, .usingMapping request.mapping mapping.ruleCount :: notices,
            ⟨mapping, engine, hmapping, hengine, hgives⟩, ?_⟩
          simp only [bind, Except.bind, hran]
          rfl
        · refine .inl ⟨.evaluation hinput hmapping hengine hload hrun, failure,
            .usingMapping request.mapping mapping.ruleCount :: notices, ?_⟩
          simp only [bind, Except.bind, hran]
      · rw [hloads]
        exact .inl ⟨.payload hinput hfails, e, _, rfl⟩
    · rw [hengine]
      exact .inl ⟨.attributes hpath hfails, e, _, rfl⟩

theorem Blocked.not_ready {results : List Value} (h : Blocked files request) :
    ¬ Ready files request results := by
  rintro ⟨mapping, engine, hmapping, hengine, hgives⟩
  have hgiven := exists_of_forall₂ hgives
  cases h with
  | mapping h => cases hmapping.symm.trans h
  | attributes hpath h =>
    obtain ⟨_, _, hattributes⟩ | ⟨⟨e, hfails⟩, -⟩ := loadEngine_cases files request
    · obtain ⟨attributes, hload⟩ := hattributes _ hpath
      cases hload.symm.trans h
    · cases hengine.symm.trans hfails
  | payload hinput h =>
    obtain ⟨_, payload, _, _, hload, _⟩ := hgiven _ hinput
    cases hload.symm.trans h
  | evaluation hinput hmapping' hengine' hload' hrun' =>
    obtain ⟨_, payload, document, session, hload, hrun, _⟩ := hgiven _ hinput
    obtain rfl := Except.ok.inj (hmapping.symm.trans hmapping')
    obtain rfl := Except.ok.inj (hengine.symm.trans hengine')
    obtain rfl := Except.ok.inj (hload.symm.trans hload')
    cases (congrArg Prod.fst hrun).symm.trans (congrArg Prod.fst hrun')

theorem Ready.unique {results others : List Value} (h : Ready files request results)
    (hothers : Ready files request others) : results = others := by
  obtain ⟨mapping, engine, hmapping, hengine, hgives⟩ := h
  obtain ⟨mapping', engine', hmapping', hengine', hgives'⟩ := hothers
  obtain rfl := Except.ok.inj (hmapping.symm.trans hmapping')
  obtain rfl := Except.ok.inj (hengine.symm.trans hengine')
  exact gives_unique.forall₂ hgives hgives'

theorem transform_of_ready {results : List Value} (h : Ready files request results) :
    ∃ notices,
      transform files request = deliver files request.output (outputText results) notices := by
  obtain ⟨hblocked, -⟩ | ⟨others, notices, hothers, hran⟩ := transform_cases files request
  · exact absurd h hblocked.not_ready
  · obtain rfl := h.unique hothers
    exact ⟨notices, hran⟩

end PayloadMapping.Command
