import PayloadMapping.Engine.Evaluate

set_option autoImplicit false

/-!
# What an evaluation reads

A rule reads the subtree that it is evaluated for, and the subtree around it, at places that can
be told from the rule: where its lookup leads, the source of a loop, and the paths in its action.
The rules of a loop read items, which the list gives, and the subtree around the loop for lookups
in the parent. So two sources with the same results at these places are evaluated alike;
`run_eq_of_reads_alike` says so of whole mappings.
-/

namespace PayloadMapping

/-- Reading at the given places does not tell the values apart: at each it finds the same value
or fails in the same way. -/
def Value.ReadAlike (places : List (List String)) (v w : Value) : Prop :=
  ∀ segments ∈ places, Path.readSegments v segments = Path.readSegments w segments

namespace Value.ReadAlike

variable {places more : List (List String)} {v w : Value}

theorem refl (places : List (List String)) (v : Value) : ReadAlike places v v := fun _ _ => rfl

theorem append_iff : ReadAlike (places ++ more) v w ↔ ReadAlike places v w ∧ ReadAlike more v w :=
  List.forall_mem_append

theorem paths_iff {paths : List Path} :
    ReadAlike (paths.map Path.segments) v w ↔ ∀ path ∈ paths, path.read v = path.read w :=
  List.forall_mem_map

end Value.ReadAlike

namespace Action

mutual

def paths : Action → List Path
  | .affix _ part .variable _ => pathList part
  | .sum lists _ => pathList lists
  | .valueIn _ lists => (lists.map pathList).getD []
  | .chain actions => pathsAll actions
  | .affix _ _ .constant _ | .capitalise | .extractIndex _ _ | .listToDict _ | .flat _ _ _
  | .cast _ | .text _ | .default _ | .reserved _ => []

def pathsAll : List Action → List Path
  | [] => []
  | action :: rest => paths action ++ pathsAll rest

end

section

variable {scope scope' : Value} {ps : List Path}

theorem lookUpTexts_congr (action : String) (h : ∀ p ∈ ps, p.read scope = p.read scope') :
    lookUpTexts action scope ps = lookUpTexts action scope' ps := by
  induction ps with
  | nil => rfl
  | cons p rest ih =>
    obtain ⟨hp, hrest⟩ := List.forall_mem_cons.1 h
    rw [lookUpTexts, lookUpTexts, hp, ih hrest]

theorem lookUpEvents_congr (h : ∀ p ∈ ps, p.read scope = p.read scope') :
    lookUpEvents scope ps = lookUpEvents scope' ps := by
  induction ps with
  | nil => rfl
  | cons p rest ih =>
    obtain ⟨hp, hrest⟩ := List.forall_mem_cons.1 h
    rw [lookUpEvents, lookUpEvents, hp, ih hrest]

theorem addLists_congr (key : String) (total : Total)
    (h : ∀ p ∈ ps, p.read scope = p.read scope') :
    addLists key scope total ps = addLists key scope' total ps := by
  induction ps generalizing total with
  | nil => rfl
  | cons p rest ih =>
    obtain ⟨hp, hrest⟩ := List.forall_mem_cons.1 h
    simp only [addLists, hp, ih _ hrest]

theorem sumEvents_congr (key : String) (total : Total)
    (h : ∀ p ∈ ps, p.read scope = p.read scope') :
    sumEvents key scope total ps = sumEvents key scope' total ps := by
  induction ps generalizing total with
  | nil => rfl
  | cons p rest ih =>
    obtain ⟨hp, hrest⟩ := List.forall_mem_cons.1 h
    simp only [sumEvents, hp, ih _ hrest]

theorem membersAt_congr (h : ∀ p ∈ ps, p.read scope = p.read scope') :
    ps.flatMap (membersAt scope) = ps.flatMap (membersAt scope') ∧
      ps.map (memberEvent scope) = ps.map (memberEvent scope') := by
  have hmembers : ∀ p ∈ ps, membersAt scope p = membersAt scope' p := fun p hp => by
    rw [membersAt, membersAt, h p hp]
  have hevents : ∀ p ∈ ps, memberEvent scope p = memberEvent scope' p := fun p hp => by
    rw [memberEvent, memberEvent, h p hp]
  rw [List.flatMap_def, List.flatMap_def, List.map_congr_left hmembers]
  exact ⟨rfl, List.map_congr_left hevents⟩

end

mutual

/-- An action gives the same value or failure, and reports the same, within scopes that read
alike at its paths. -/
theorem apply_congr : ∀ (action : Action) (v scope scope' : Value),
    (∀ p ∈ action.paths, p.read scope = p.read scope') →
    action.apply v scope = action.apply v scope' ∧ action.events v scope = action.events v scope'
  | .affix side part .variable separator, v, scope, scope', h => by
    rw [paths] at h
    have htexts := fun action => lookUpTexts_congr action h
    have hevents := lookUpEvents_congr h
    constructor
    · simp only [apply, addPart, addition, htexts]
    · simp only [events, addPartEvents, hevents]
  | .sum lists key, v, scope, scope', h => by
    rw [paths] at h
    constructor
    · simp only [apply, sumField, addLists_congr key _ h]
    · simp only [events, sumEvents_congr key _ h]
  | .valueIn values lists, v, scope, scope', h => by
    rw [paths] at h
    obtain ⟨hmembers, hevents⟩ := membersAt_congr h
    constructor
    · simp only [apply, members, hmembers]
    · simp only [events, hevents]
  | .chain actions, v, scope, scope', h => by
    simpa only [apply, events] using applyAll_congr actions v scope scope' h
  | .affix _ part .constant _, v, scope, scope', _ => by
    refine ⟨rfl, ?_⟩
    simp only [events, addPartEvents]
    cases scalarText? v <;> rfl
  | .capitalise, v, scope, scope', _ => ⟨rfl, rfl⟩
  | .extractIndex _ _, v, scope, scope', _ => ⟨rfl, rfl⟩
  | .listToDict _, v, scope, scope', _ => ⟨rfl, rfl⟩
  | .flat _ _ _, v, scope, scope', _ => ⟨rfl, rfl⟩
  | .cast _, v, scope, scope', _ => ⟨rfl, rfl⟩
  | .text _, v, scope, scope', _ => ⟨rfl, rfl⟩
  | .default _, v, scope, scope', _ => ⟨rfl, rfl⟩
  | .reserved _, v, scope, scope', _ => ⟨rfl, rfl⟩

theorem applyAll_congr : ∀ (actions : List Action) (v scope scope' : Value),
    (∀ p ∈ pathsAll actions, p.read scope = p.read scope') →
    applyAll actions v scope = applyAll actions v scope' ∧
      eventsAll actions v scope = eventsAll actions v scope'
  | [], v, scope, scope', _ => ⟨rfl, rfl⟩
  | action :: rest, v, scope, scope', h => by
    obtain ⟨hfirst, hrest⟩ := List.forall_mem_append.1 h
    obtain ⟨happly, hevents⟩ := apply_congr action v scope scope' hfirst
    rw [applyAll, applyAll, eventsAll, eventsAll, happly, hevents]
    cases action.apply v scope' with
    | error e => exact ⟨rfl, rfl⟩
    | ok w =>
      obtain ⟨hmore, hmoreEvents⟩ := applyAll_congr rest w scope scope' hrest
      exact ⟨hmore, congrArg (events action v scope' ++ ·) hmoreEvents⟩

end

end Action

namespace Engine

open Value (ReadAlike)

def lookUpPlaces (engine : Engine) (rule : FieldRule) : List (List String) :=
  match rule.source.map engine.route with
  | some .whole => [[]]
  | some (.payload segments) => [segments]
  | some (.cache _ _) | some (.provider _ _ _) | none => []

def actionPlaces (action : Option Action) : List (List String) :=
  ((action.map Action.paths).getD []).map Path.segments

mutual

/-- The places at which a rule reads the subtree around the one that it is evaluated for. -/
def parentPlaces (engine : Engine) : Rule → List (List String)
  | .field rule => if rule.fromParent then engine.lookUpPlaces rule else []
  | .group rules => parentPlacesAll engine rules
  | .loop _ _ _ _ => []

def parentPlacesAll (engine : Engine) : List Rule → List (List String)
  | [] => []
  | rule :: rest => parentPlaces engine rule ++ parentPlacesAll engine rest

end

mutual

/-- The places at which a rule reads the subtree that it is evaluated for, which is the one
around the items of a loop. -/
def currentPlaces (engine : Engine) : Rule → List (List String)
  | .field rule =>
    (if rule.fromParent then [] else engine.lookUpPlaces rule) ++ actionPlaces rule.action
  | .group rules => currentPlacesAll engine rules
  | .loop source _ rules action =>
    source.segments :: engine.parentPlacesAll rules ++ actionPlaces action

def currentPlacesAll (engine : Engine) : List Rule → List (List String)
  | [] => []
  | rule :: rest => currentPlaces engine rule ++ currentPlacesAll engine rest

end

/-- The places of the source that the rules of a mapping name. The subtree around the whole
source is the source. -/
def namedPlaces (engine : Engine) (mapping : Mapping) : List (List String) :=
  engine.currentPlacesAll mapping.rules ++ engine.parentPlacesAll mapping.rules

theorem read_congr {v w : Value} {segments : List String}
    (h : Path.readSegments v segments = Path.readSegments w segments) :
    Eval.read v segments = Eval.read w segments := by
  unfold Eval.read
  rw [h]

theorem start_congr (engine : Engine) (rule : FieldRule) {current current' parent parent' : Value}
    (hcurrent : ReadAlike (engine.currentPlaces (.field rule)) current current')
    (hparent : ReadAlike (engine.parentPlaces (.field rule)) parent parent') :
    engine.start rule current parent = engine.start rule current' parent' := by
  have hbase : ReadAlike (engine.lookUpPlaces rule) (if rule.fromParent then parent else current)
      (if rule.fromParent then parent' else current') := by
    rw [currentPlaces, ReadAlike.append_iff] at hcurrent
    rw [parentPlaces] at hparent
    by_cases hfrom : rule.fromParent = true
    · simpa only [hfrom, if_true] using hparent
    · simpa only [if_neg hfrom] using hcurrent.1
  unfold start
  cases hsource : rule.source with
  | none => rfl
  | some path =>
    dsimp only
    unfold lookUp
    unfold lookUpPlaces at hbase
    rw [hsource, Option.map_some] at hbase
    cases hroute : engine.route path with
    | whole =>
      rw [hroute] at hbase
      have hwhole : Path.readSegments _ [] = Path.readSegments _ [] :=
        hbase [] List.mem_cons_self
      simp only [Except.ok.inj hwhole]
    | payload segments =>
      rw [hroute] at hbase
      exact read_congr (hbase segments List.mem_cons_self)
    | cache key rest => cases key <;> rfl
    | provider scope name rest => rfl

theorem actIfAny_congr (engine : Engine) (action : Option Action) (v : Value) (target : String)
    {scope scope' : Value} (h : ReadAlike (actionPlaces action) scope scope') :
    engine.actIfAny action v scope target = engine.actIfAny action v scope' target := by
  cases action with
  | none => rfl
  | some action =>
    obtain ⟨happly, hevents⟩ := action.apply_congr v scope scope' (ReadAlike.paths_iff.1 h)
    simp only [actIfAny, act, happly, hevents]

theorem fieldValue_congr (engine : Engine) (rule : FieldRule)
    {current current' parent parent' : Value}
    (hcurrent : ReadAlike (engine.currentPlaces (.field rule)) current current')
    (hparent : ReadAlike (engine.parentPlaces (.field rule)) parent parent') :
    engine.fieldValue rule current parent = engine.fieldValue rule current' parent' := by
  have hstart := start_congr engine rule hcurrent hparent
  rw [currentPlaces, ReadAlike.append_iff] at hcurrent
  have hact := fun v => actIfAny_congr engine rule.action v rule.target.text hcurrent.2
  simp only [fieldValue, hstart, hact]

theorem loopValue_congr (engine : Engine) {evaluate evaluate' : Value → Eval Value}
    (source target : Path) (action : Option Action) {current current' : Value}
    (hevaluate : evaluate = evaluate') (hsource : source.read current = source.read current')
    (haction : ReadAlike (actionPlaces action) current current') :
    engine.loopValue evaluate source target action current =
      engine.loopValue evaluate' source target action current' := by
  have hact := fun v => actIfAny_congr engine action v target.text haction
  subst hevaluate
  simp only [loopValue, read_congr hsource, hact]

mutual

theorem evaluateRule_congr (engine : Engine) : ∀ (rule : Rule)
    (current current' parent parent' result : Value),
    ReadAlike (engine.currentPlaces rule) current current' →
    ReadAlike (engine.parentPlaces rule) parent parent' →
    engine.evaluateRule rule current parent result =
      engine.evaluateRule rule current' parent' result
  | .field rule, current, current', parent, parent', result, hcurrent, hparent => by
    rw [evaluateRule, evaluateRule, fieldValue_congr engine rule hcurrent hparent]
  | .group rules, current, current', parent, parent', result, hcurrent, hparent => by
    rw [evaluateRule, evaluateRule,
      evaluateRules_congr engine rules current current' parent parent' .empty hcurrent hparent]
  | .loop source target rules action, current, current', parent, parent', result, hcurrent, _ => by
    rw [currentPlaces, List.cons_append] at hcurrent
    obtain ⟨hsource, hnested⟩ := List.forall_mem_cons.1 hcurrent
    obtain ⟨hbody, haction⟩ := ReadAlike.append_iff.1 hnested
    -- the items are the same; the rules inside see another subtree around them
    have hitems : (fun item => engine.evaluateRules rules item current .empty) =
        fun item => engine.evaluateRules rules item current' .empty := by
      funext item
      exact evaluateRules_congr engine rules item item current current' .empty (.refl _ _) hbody
    rw [evaluateRule, evaluateRule,
      loopValue_congr engine source target action hitems hsource haction]

theorem evaluateRules_congr (engine : Engine) : ∀ (rules : List Rule)
    (current current' parent parent' result : Value),
    ReadAlike (engine.currentPlacesAll rules) current current' →
    ReadAlike (engine.parentPlacesAll rules) parent parent' →
    engine.evaluateRules rules current parent result =
      engine.evaluateRules rules current' parent' result
  | [], current, current', parent, parent', result, _, _ => by
    rw [evaluateRules, evaluateRules]
  | rule :: rest, current, current', parent, parent', result, hcurrent, hparent => by
    rw [currentPlacesAll, ReadAlike.append_iff] at hcurrent
    rw [parentPlacesAll, ReadAlike.append_iff] at hparent
    rw [evaluateRules, evaluateRules,
      evaluateRule_congr engine rule current current' parent parent' result hcurrent.1 hparent.1]
    congr 1
    funext reached
    exact evaluateRules_congr engine rest current current' parent parent' reached hcurrent.2
      hparent.2

end

/-- Two sources that read alike at the places that a mapping names are evaluated alike: to the
same document or error, with the same context and the same events. -/
theorem run_eq_of_reads_alike (engine : Engine) (mapping : Mapping) (session : Session)
    (source source' : Value) (h : ReadAlike (engine.namedPlaces mapping) source source') :
    engine.run mapping source session = engine.run mapping source' session := by
  obtain ⟨hcurrent, hparent⟩ := ReadAlike.append_iff.1 h
  unfold run document
  rw [evaluateRules_congr engine mapping.rules source source' source source' .empty hcurrent
    hparent]

/-- A loop over legs whose rules take the currency from around the legs and add the carrier to
it; the sources differ in what no rule names. -/
theorem run_eq_of_reads_alike_legs :
    let fare : FieldRule :=
      { source := some (Path.parse "currency"), target := Path.parse "fare", fromParent := true
        action := some (.affix .after "price" .variable (some " ")) }
    let kind : FieldRule := .copy (Path.parse "$$kind") (Path.parse "kind")
    let mapping : Mapping :=
      { rules := [.field kind, .loop (Path.parse "legs") (Path.parse "fares") [.field fare] none] }
    let source := fun passenger : Value => Value.object
      [("$kind", .string "air"), ("currency", .string "EUR"),
        ("legs", .array [.object [("price", .string "7")]]), ("passenger", passenger)]
    Value.ReadAlike (({} : Engine).namedPlaces mapping) (source .null) (source (.bool true)) ∧
      ({} : Engine).run mapping (source .null) {} =
        ({} : Engine).run mapping (source (.bool true)) {} := by
  intro fare kind mapping source
  have halike : Value.ReadAlike (({} : Engine).namedPlaces mapping) (source .null)
      (source (.bool true)) := by
    have hplaces : ({} : Engine).namedPlaces mapping = [["$kind"], ["legs"], ["currency"]] := by
      decide +kernel
    rw [hplaces]
    refine List.forall_mem_cons.2 ⟨rfl, List.forall_mem_cons.2 ⟨rfl, ?_⟩⟩
    exact List.forall_mem_singleton.2 rfl
  exact ⟨halike, run_eq_of_reads_alike {} mapping {} _ _ halike⟩

end Engine

end PayloadMapping
