import Mathlib.Data.List.Forall2
import PayloadMapping.Proofs.Evaluation.Footprint
import PayloadMapping.Proofs.Evaluation.Trace

set_option autoImplicit false

/-!
# Loops as maps

A loop evaluates its rules for one item after another in one context. If nothing in them is
kept in the cache or read from the parent subtree, the items do not see each other:
`loop_eq_map_of_runs` says that the loop gives what separate evaluations of the items give, one
after another.
-/

namespace PayloadMapping

namespace Rule

mutual

/-- The rule looks something up in the parent subtree that it is given. Loops give their rules
another one. -/
def readsParent : Rule → Bool
  | .field rule => rule.fromParent
  | .group rules => readsParentAny rules
  | .loop _ _ _ _ => false

def readsParentAny : List Rule → Bool
  | [] => false
  | rule :: rest => readsParent rule || readsParentAny rest

end

end Rule

namespace Engine

mutual

theorem parentPlaces_of_not_readsParent (engine : Engine) : ∀ {rule : Rule},
    rule.readsParent = false → engine.parentPlaces rule = []
  | .field rule, h => by
    rw [Rule.readsParent] at h
    rw [parentPlaces, if_neg (by simp [h])]
  | .group rules, h => by
    rw [Rule.readsParent] at h
    rw [parentPlaces, parentPlacesAll_of_not_readsParentAny engine h]
  | .loop _ _ _ _, _ => rfl

theorem parentPlacesAll_of_not_readsParentAny (engine : Engine) : ∀ {rules : List Rule},
    Rule.readsParentAny rules = false → engine.parentPlacesAll rules = []
  | [], _ => rfl
  | rule :: rest, h => by
    obtain ⟨hrule, hrest⟩ := Bool.or_eq_false_iff.1 h
    rw [parentPlacesAll, parentPlaces_of_not_readsParent engine hrule,
      parentPlacesAll_of_not_readsParentAny engine hrest, List.append_nil]

end

theorem evaluateRules_parent (engine : Engine) (rules : List Rule)
    (current parent parent' : Value) (result : Value) (h : Rule.readsParentAny rules = false) :
    engine.evaluateRules rules current parent result =
      engine.evaluateRules rules current parent' result := by
  refine evaluateRules_congr engine rules _ _ _ _ result (.refl _ current) ?_
  rw [parentPlacesAll_of_not_readsParentAny engine h]
  exact List.forall_mem_nil _

end Engine

namespace Eval.Traced

variable {α β : Type} {step : α → Eval β} {cache : Fields Value} {changes : α → List Change}

theorem mapM_ok {results : α → β} (items : List α)
    (hkept : ∀ item, (changes item).foldl Change.cacheAfter cache = cache)
    (h : ∀ item ∈ items, Traced (step item) cache (.ok (results item)) (changes item)) :
    Traced (items.mapM step) cache (.ok (items.map results)) (items.flatMap changes) := by
  induction items with
  | nil => exact .pure []
  | cons item rest ih =>
    have hfirst := h item List.mem_cons_self
    have hrest := ih fun i hi => h i (List.mem_cons_of_mem _ hi)
    rw [List.mapM_cons, List.flatMap_cons]
    refine hfirst.bind_ok ?_
    rw [hkept]
    have hjoined : Traced (rest.mapM step >>= fun more => Pure.pure (results item :: more)) cache
        (.ok (results item :: rest.map results)) (rest.flatMap changes ++ []) :=
      hrest.bind_ok (.pure _)
    rwa [List.append_nil] at hjoined

theorem mapM_error {results : α → β} {before after : List α} {item : α} {e : EngineError}
    (hkept : ∀ item, (changes item).foldl Change.cacheAfter cache = cache)
    (hbefore : ∀ i ∈ before, Traced (step i) cache (.ok (results i)) (changes i))
    (hitem : Traced (step item) cache (.error e) (changes item)) :
    Traced ((before ++ item :: after).mapM step) cache (.error e)
      (before.flatMap changes ++ changes item) := by
  induction before with
  | nil =>
    rw [List.nil_append, List.mapM_cons]
    exact hitem.bind_error
  | cons first rest ih =>
    have hfirst := hbefore first List.mem_cons_self
    have hrest := ih fun i hi => hbefore i (List.mem_cons_of_mem _ hi)
    rw [List.cons_append, List.mapM_cons, List.flatMap_cons, List.append_assoc]
    refine hfirst.bind_ok ?_
    rw [hkept]
    exact hrest.bind_error

end Eval.Traced

namespace Engine

open Eval

theorem forall_ok_or_first_error {α β ε : Type} (outcome : α → Except ε β) (items : List α) :
    (∀ item ∈ items, ∃ b, outcome item = .ok b) ∨
      ∃ before item after e, items = before ++ item :: after ∧
        (∀ i ∈ before, ∃ b, outcome i = .ok b) ∧ outcome item = .error e := by
  induction items with
  | nil => exact .inl (by simp)
  | cons first rest ih =>
    cases hfirst : outcome first with
    | error e => exact .inr ⟨[], first, rest, e, rfl, by simp, hfirst⟩
    | ok b =>
      rcases ih with hall | ⟨before, item, after, e, rfl, hbefore, hitem⟩
      · exact .inl (List.forall_mem_cons.2 ⟨⟨b, hfirst⟩, hall⟩)
      · exact .inr ⟨first :: before, item, after, e, rfl,
          List.forall_mem_cons.2 ⟨⟨b, hfirst⟩, hbefore⟩, hitem⟩

/-- The evaluation of an item of a loop with the rules `body`, on its own: it starts from a
context with the given cached values and nothing else. -/
def runAlone (engine : Engine) (body : List Rule) (cache : Fields Value) (item : Value) :
    Except EngineError Value × Session :=
  engine.run { rules := body } item { context := { cache := cache } }

def ItemTraces (engine : Engine) (body : List Rule) (current : Value) (cache : Fields Value) :=
  Traces (fun item => engine.evaluateRules body item current .empty) (fun _ => True)
    (fun _ => True) cache

theorem nonempty_itemTraces (engine : Engine) {body : List Rule}
    (hcaches : Rule.cachesAny body = false) (current : Value) (cache : Fields Value) :
    Nonempty (ItemTraces engine body current cache) :=
  Traces.nonempty_of_makes fun item _ =>
    evaluateRules_makes engine body item current .empty (by simp [hcaches])

namespace ItemTraces

variable {engine : Engine} {body : List Rule} {current : Value} {cache : Fields Value}
  (traces : ItemTraces engine body current cache)

/-- An item on its own has the trace that it has in the loop, up to the event of the start. -/
theorem runAlone_eq (hparent : Rule.readsParentAny body = false) (item : Value) :
    (engine.runAlone body cache item).1 = traces.outcome item ∧
      (engine.runAlone body cache item).2.context.diagnostics =
        (traces.changes item).filterMap Change.diagnostic? ∧
      (engine.runAlone body cache item).2.context.uniqueIds =
        Context.unseen [] ((traces.changes item).filterMap Change.id?) := by
  have h := traces.traced item trivial
  rw [evaluateRules_parent engine body item current item .empty hparent] at h
  have hdocument := h.report_bind [.started (Mapping.label { rules := body }) body.length]
  have hrun : engine.runAlone body cache item = (traces.outcome item, _) :=
    hdocument { context := { cache := cache } } rfl
  rw [hrun]
  refine ⟨rfl, ?_, ?_⟩
  · rw [Session.after_diagnostics]
    rfl
  · rw [Session.after_uniqueIds]
    rfl

end ItemTraces

def collect (engine : Engine) (source target : Path) (body : List Rule) (current : Value) :
    Eval Value :=
  engine.loopValue (fun item => engine.evaluateRules body item current .empty) source target none
    current

def finishLoop (result v : Value) (target : Path) : Eval Value := do
  let produced ← place .empty v target
  return result.merge produced

theorem evaluateRule_loop (engine : Engine) (source target : Path) (body : List Rule)
    (current parent result : Value) :
    engine.evaluateRule (.loop source target body none) current parent result =
      engine.collect source target body current >>= fun v => finishLoop result v target := by
  rw [evaluateRule]
  rfl

theorem place_succeeds (result value : Value) (target : Path) (session : Session) :
    ∃ placed reached, (place result value target).run session = (.ok placed, reached) := by
  unfold place
  split
  · split <;> exact ⟨_, _, rfl⟩
  · split <;> exact ⟨_, _, rfl⟩

theorem finishLoop_succeeds (result v : Value) (target : Path) (session : Session) :
    ∃ w, ((finishLoop result v target).run session).1 = .ok w := by
  obtain ⟨placed, reached, hplaced⟩ := place_succeeds .empty v target session
  unfold finishLoop
  rw [run_bind, hplaced]
  exact ⟨_, rfl⟩

def loopEntry (source target : Path) (items : List Value) : List Change :=
  [.report [.pathRead (Path.join source.segments)],
    .report [.loopEntered source.text target.text items.length]]

theorem loopValue_items (engine : Engine) {evaluate : Value → Eval Value} {source : Path}
    (target : Path) (action : Option Action) {current : Value} {items : List Value}
    (hitems : source.read current = .ok (.array items)) :
    engine.loopValue evaluate source target action current = (do
      report [.pathRead (Path.join source.segments)]
      report [.loopEntered source.text target.text items.length]
      let documents ← items.mapM evaluate
      engine.actIfAny action (.array documents) current target.text) := by
  have hread : Path.readSegments current source.segments = .ok (.array items) := hitems
  unfold loopValue Eval.read
  rw [hread]
  rfl

section

variable {engine : Engine} {source : Path} (target : Path) {body : List Rule} {current : Value}
  {cache : Fields Value} (traces : ItemTraces engine body current cache)

theorem collect_items {items : List Value} (hitems : source.read current = .ok (.array items)) :
    engine.collect source target body current = (do
      report [.pathRead (Path.join source.segments)]
      report [.loopEntered source.text target.text items.length]
      let documents ← items.mapM fun item => engine.evaluateRules body item current .empty
      return .array documents) :=
  loopValue_items engine target none hitems

theorem collect_ok {items : List Value} (hitems : source.read current = .ok (.array items))
    (h : ∀ item ∈ items, ∃ d, traces.outcome item = .ok d) :
    Traced (engine.collect source target body current) cache
      (.ok (.array (items.map traces.result)))
      (loopEntry source target items ++ items.flatMap traces.changes) := by
  have hmap := Traced.mapM_ok items (fun _ => traces.kept trivial) fun item hitem =>
    traces.traced_result trivial (h item hitem)
  have hcollected : Traced (do
      let documents ← items.mapM fun item => engine.evaluateRules body item current .empty
      return Value.array documents) cache (.ok (.array (items.map traces.result)))
      (items.flatMap traces.changes ++ []) := hmap.bind_ok (.pure _)
  rw [List.append_nil] at hcollected
  rw [collect_items target hitems]
  exact (hcollected.report_bind _).report_bind _

theorem collect_error {before after : List Value} {item : Value} {e : EngineError}
    (hitems : source.read current = .ok (.array (before ++ item :: after)))
    (hbefore : ∀ i ∈ before, ∃ d, traces.outcome i = .ok d)
    (hitem : traces.outcome item = .error e) :
    ∃ reported, Traced (engine.collect source target body current) cache (.error e) reported := by
  have hmap : Traced ((before ++ item :: after).mapM fun item =>
      engine.evaluateRules body item current .empty) cache (.error e) _ :=
    Traced.mapM_error (fun _ => traces.kept trivial)
      (fun i hi => traces.traced_result trivial (hbefore i hi)) (hitem ▸ traces.traced item trivial)
  have hcollected : Traced (do
      let documents ← (before ++ item :: after).mapM fun item =>
        engine.evaluateRules body item current .empty
      return Value.array documents) cache (.error e) _ := hmap.bind_error
  rw [collect_items target hitems]
  exact ⟨_, (hcollected.report_bind _).report_bind _⟩

theorem loop_first_error {before after : List Value} {item : Value} {e : EngineError}
    (session : Session) (hcache : session.context.cache = cache) (parent result : Value)
    (hitems : source.read current = .ok (.array (before ++ item :: after)))
    (hbefore : ∀ i ∈ before, ∃ d, traces.outcome i = .ok d)
    (hitem : traces.outcome item = .error e) :
    ((engine.evaluateRule (.loop source target body none) current parent result).run
      session).1 = .error e := by
  obtain ⟨reported, hcollected⟩ := collect_error target traces hitems hbefore hitem
  rw [evaluateRule_loop, run_bind, hcollected session hcache]

theorem loop_succeeds_iff {items : List Value} (session : Session)
    (hcache : session.context.cache = cache) (parent result : Value)
    (hitems : source.read current = .ok (.array items)) :
    (∃ w, ((engine.evaluateRule (.loop source target body none) current parent result).run
      session).1 = .ok w) ↔ ∀ item ∈ items, ∃ d, traces.outcome item = .ok d := by
  constructor
  · rintro ⟨w, hw⟩
    rcases forall_ok_or_first_error traces.outcome items with h | ⟨before, item, after, e, rfl, h⟩
    · exact h
    · rw [loop_first_error target traces session hcache parent result hitems h.1 h.2] at hw
      cases hw
  · intro h
    rw [evaluateRule_loop, run_bind, collect_ok target traces hitems h session hcache]
    exact finishLoop_succeeds _ _ _ _

end

/-- A loop without action, whose rules keep nothing in the cache and read nothing from their
parent, is the map of separate evaluations: it succeeds if they all do and else ends as the
first that fails; it collects their documents in order, and adds their diagnostics and their
ids, except those already seen. -/
theorem loop_eq_map_of_runs (engine : Engine) (source target : Path) (body : List Rule)
    (current parent result : Value) (items : List Value) (session : Session)
    (hcaches : Rule.cachesAny body = false) (hparent : Rule.readsParentAny body = false)
    (hitems : source.read current = .ok (.array items)) :
    let alone := engine.runAlone body session.context.cache
    let collected := (engine.collect source target body current).run session
    let looped := (engine.evaluateRule (.loop source target body none) current parent
      result).run session
    ((∃ w, looped.1 = .ok w) ↔ ∀ item ∈ items, ∃ d, (alone item).1 = .ok d) ∧
    (∀ before item after e, items = before ++ item :: after →
      (∀ i ∈ before, ∃ d, (alone i).1 = .ok d) → (alone item).1 = .error e →
      looped.1 = .error e) ∧
    ((∃ w, looped.1 = .ok w) → ∃ documents, collected.1 = .ok (.array documents) ∧
      List.Forall₂ (fun item d => (alone item).1 = .ok d) items documents ∧
      looped = (finishLoop result (.array documents) target).run collected.2 ∧
      collected.2.context.diagnostics = session.context.diagnostics ++
        items.flatMap (fun item => (alone item).2.context.diagnostics) ∧
      collected.2.context.uniqueIds = session.context.uniqueIds ++
        Context.unseen session.context.seenTexts
          (items.flatMap fun item => (alone item).2.context.uniqueIds)) := by
  intro alone collected looped
  -- from the same cached values an item has the same trace in the loop and on its own
  obtain ⟨traces⟩ := nonempty_itemTraces engine hcaches current session.context.cache
  have halone := traces.runAlone_eq hparent
  have hsucceeds := loop_succeeds_iff target traces session rfl parent result hitems
  refine ⟨by simpa only [alone, halone] using hsucceeds, ?_, ?_⟩
  · intro before item after e hsplit hbefore hitem
    simp only [alone, halone] at hbefore hitem
    exact loop_first_error target traces session rfl parent result (hsplit ▸ hitems) hbefore hitem
  · intro h
    have hok := hsucceeds.1 h
    have hcollected : collected = (.ok (.array (items.map traces.result)), session.after _) :=
      collect_ok target traces hitems hok session rfl
    have hlooped : looped =
        (finishLoop result (.array (items.map traces.result)) target).run collected.2 := by
      simp only [looped, evaluateRule_loop, run_bind, hcollected]
      rw [collect_ok target traces hitems hok session rfl]
    refine ⟨items.map traces.result, by rw [hcollected], ?_, hlooped, ?_, ?_⟩
    · rw [List.forall₂_map_right_iff, List.forall₂_same]
      intro item hitem
      rw [(halone item).1, traces.outcome_eq_result (hok item hitem)]
    · rw [hcollected, Session.after_diagnostics]
      simp [loopEntry, alone, halone, List.filterMap_cons, Change.diagnostic?,
        List.filterMap_flatMap]
    · rw [hcollected, Session.after_uniqueIds]
      simp only [alone, halone, Context.unseen_flatMap_unseen]
      simp [loopEntry, List.filterMap_cons, Change.id?, List.filterMap_flatMap]

/-- Two records with the same id. -/
theorem loop_eq_map_of_runs_repeated_id :
    let name := Path.parse "name"
    let rule : FieldRule := { source := some name, target := name, isUniqueId := true }
    let record : Value := .object [("name", .string "a")]
    let source := Path.parse "records"
    let current : Value := .object [("records", .array [record, record])]
    Rule.cachesAny [.field rule] = false ∧ Rule.readsParentAny [.field rule] = false ∧
      source.read current = .ok (.array [record, record]) ∧
      ((∃ w, (((⟨[], {}⟩ : Engine).evaluateRule (.loop source name [.field rule] none) current
        current .empty).run {}).1 = .ok w) ↔ ∀ item ∈ [record, record],
          ∃ d, ((⟨[], {}⟩ : Engine).runAlone [.field rule] [] item).1 = .ok d) := by
  intro name rule record source current
  have hitems : source.read current = .ok (.array [record, record]) := by decide
  exact ⟨rfl, rfl, hitems, (loop_eq_map_of_runs ⟨[], {}⟩ source name [.field rule] current current
    .empty [record, record] {} rfl rfl hitems).1⟩

end Engine

end PayloadMapping
