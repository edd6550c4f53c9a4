import PayloadMapping.Proofs.Evaluation.Closed
import PayloadMapping.Proofs.Evaluation.Loop

set_option autoImplicit false

/-!
# The visits of an evaluation

Ids are recorded and values remembered by field rules alone. So what an evaluation does to them
is said by the list of its visits: the field rules that it comes to, one after another, each with
the session in which it begins. Which rules these are, and for which subtrees, does not depend on
the engine or the session; an evaluation that fails just ends before the last.
`Engine.run_covers` says that an evaluation goes from visit to visit, and that between them it
adds diagnostics and events only.
-/

namespace PayloadMapping

/-- A field rule with the subtree that it is evaluated for and the one around it. -/
structure Site where
  rule : FieldRule
  current : Value
  parent : Value

structure Visit where
  site : Site
  session : Session

namespace Rule

mutual

/-- The sites that a rule asks for, in the order in which it does: rules as they are declared,
items as the list has them. -/
def sites : Rule → Value → Value → List Site
  | .field rule, current, parent => [⟨rule, current, parent⟩]
  | .group rules, current, parent => sitesAll rules current parent
  | .loop source _ rules _, current, _ =>
    match source.read current with
    | .ok (.array items) => items.flatMap fun item => sitesAll rules item current
    | _ => []

def sitesAll : List Rule → Value → Value → List Site
  | [], _, _ => []
  | rule :: rest, current, parent => sites rule current parent ++ sitesAll rest current parent

end

mutual

theorem rule_mem_fields_of_mem_sites : ∀ {rule : Rule} {current parent : Value} {site : Site},
    site ∈ rule.sites current parent → site.rule ∈ rule.fields
  | .field rule, current, parent, site, h => by
    rw [List.mem_singleton.1 h]
    exact List.mem_singleton.2 rfl
  | .group rules, current, parent, site, h => by
    rw [sites] at h
    exact rule_mem_fieldsAll_of_mem_sitesAll h
  | .loop source target rules action, current, parent, site, h => by
    rw [sites] at h
    split at h
    · obtain ⟨item, _, hitem⟩ := List.mem_flatMap.1 h
      exact rule_mem_fieldsAll_of_mem_sitesAll hitem
    · cases h

theorem rule_mem_fieldsAll_of_mem_sitesAll : ∀ {rules : List Rule} {current parent : Value}
    {site : Site}, site ∈ sitesAll rules current parent → site.rule ∈ fieldsAll rules
  | [], current, parent, site, h => by cases h
  | rule :: rest, current, parent, site, h => by
    rcases List.mem_append.1 h with h | h
    · exact List.mem_append_left _ (rule_mem_fields_of_mem_sites h)
    · exact List.mem_append_right _ (rule_mem_fieldsAll_of_mem_sitesAll h)

end

end Rule

namespace Engine

def visitsAfter {α : Type} (ran : Except EngineError α × Session)
    (next : α → Session → List Visit) : List Visit :=
  match ran with
  | (.ok a, reached) => next a reached
  | (.error _, _) => []

def visitsOver {α : Type} (step : α → Eval Value) (visits : α → Session → List Visit) :
    List α → Session → List Visit
  | [], _ => []
  | item :: rest, session =>
    visits item session ++
      visitsAfter ((step item).run session) fun _ reached => visitsOver step visits rest reached

mutual

def visits (engine : Engine) : Rule → Value → Value → Session → List Visit
  | .field rule, current, parent, session => [⟨⟨rule, current, parent⟩, session⟩]
  | .group rules, current, parent, session =>
    visitsAll engine rules current parent .empty session
  | .loop source target rules _, current, _, session =>
    match source.read current with
    | .ok (.array items) =>
      visitsOver (fun item => engine.evaluateRules rules item current .empty)
        (fun item => visitsAll engine rules item current .empty) items
        (session.after (loopEntry source target items))
    | _ => []

def visitsAll (engine : Engine) : List Rule → Value → Value → Value → Session → List Visit
  | [], _, _, _, _ => []
  | rule :: rest, current, parent, result, session =>
    visits engine rule current parent session ++
      visitsAfter ((engine.evaluateRule rule current parent result).run session)
        fun result reached => visitsAll engine rest current parent result reached

end

def visitsOf (engine : Engine) (mapping : Mapping) (source : Value) (session : Session) :
    List Visit :=
  engine.visitsAll mapping.rules source source .empty
    (session.after [.report [.started mapping.label mapping.rules.length]])

end Engine

namespace Engine

theorem append_visitsAfter_nil {α : Type} (step : Eval α) (visits : Session → List Visit) :
    (fun session => visits session ++ visitsAfter (step.run session) fun _ _ => []) = visits := by
  funext session
  unfold visitsAfter
  split <;> exact List.append_nil _

end Engine

namespace Visit

variable (engine : Engine) (visit : Visit)

def ran : Except EngineError Value × Session :=
  (engine.fieldValue visit.site.rule visit.site.current visit.site.parent).run visit.session

def found : Except EngineError (Except PathError Value) :=
  ((engine.start visit.site.rule visit.site.current visit.site.parent).run visit.session).1

end Visit

/-- From the first session to the second only diagnostics and events were added. -/
structure Session.Quiet (s t : Session) : Prop where
  cache : t.context.cache = s.context.cache
  uniqueIds : t.context.uniqueIds = s.context.uniqueIds
  seenTexts : t.context.seenTexts = s.context.seenTexts
  diagnostics : s.context.diagnostics <+: t.context.diagnostics

namespace Session.Quiet

variable {s t u : Session}

theorem refl (s : Session) : Quiet s s := ⟨rfl, rfl, rfl, List.prefix_rfl⟩

theorem trans (h : Quiet s t) (h' : Quiet t u) : Quiet s u where
  cache := h'.cache.trans h.cache
  uniqueIds := h'.uniqueIds.trans h.uniqueIds
  seenTexts := h'.seenTexts.trans h.seenTexts
  diagnostics := h.diagnostics.trans h'.diagnostics

end Session.Quiet

namespace Eval

def Notes {α : Type} (step : Eval α) : Prop :=
  ∀ session : Session, session.Quiet (step.run session).2

theorem Notes.closed : Closed { records := False, remembers := False } Notes := by
  refine .of_runs (R := fun session ran => session.Quiet ran.2) (fun _ => .refl)
    (fun session _ => .refl session) id .trans fun change hlets session => ?_
  cases change with
  | report _ => exact ⟨rfl, rfl, rfl, List.prefix_rfl⟩
  | note _ _ => exact ⟨rfl, rfl, rfl, List.prefix_append _ _⟩
  | recordId _ _ | remember _ _ => exact hlets.elim

end Eval

namespace Engine

open Eval
open Session (Quiet)

/-- The sessions of the visits follow each other from the first session to the last: a visit
begins where the one before it ended without failing, but for diagnostics and events. -/
def Leads (engine : Engine) : Session → List Visit → Session → Prop
  | s, [], t => s.Quiet t
  | s, visit :: rest, t =>
    s.Quiet visit.session ∧ (rest ≠ [] → ∃ v, (visit.ran engine).1 = .ok v) ∧
      Leads engine (visit.ran engine).2 rest t

namespace Leads

variable {engine : Engine} {s t u : Session} {visits more : List Visit}

theorem quiet_left (hquiet : s.Quiet t) (h : Leads engine t visits u) :
    Leads engine s visits u := by
  cases visits with
  | nil => exact hquiet.trans h
  | cons visit rest => exact ⟨hquiet.trans h.1, h.2⟩

theorem append (h : Leads engine s visits t)
    (hok : ∀ visit ∈ visits, ∃ v, (visit.ran engine).1 = .ok v) (hmore : Leads engine t more u) :
    Leads engine s (visits ++ more) u := by
  induction visits generalizing s with
  | nil => exact hmore.quiet_left h
  | cons visit rest ih =>
    obtain ⟨hfirst, hrest⟩ := List.forall_mem_cons.1 hok
    exact ⟨h.1, fun _ => hfirst, ih h.2.2 hrest⟩

theorem split {visit : Visit} {before after : List Visit}
    (h : Leads engine s (before ++ visit :: after) t) :
    Leads engine s before visit.session ∧
      ∀ earlier ∈ before, ∃ v, (earlier.ran engine).1 = .ok v := by
  induction before generalizing s with
  | nil => exact ⟨h.1, by simp⟩
  | cons first rest ih =>
    obtain ⟨hleads, hok⟩ := ih h.2.2
    have hfirst := h.2.1 (by simp)
    exact ⟨⟨h.1, fun _ => hfirst, hleads⟩, List.forall_mem_cons.2 ⟨hfirst, hok⟩⟩

end Leads

/-- The step goes from visit to visit, which are for the given sites as far as it gets. -/
structure Covers {α : Type} (engine : Engine) (step : Eval α) (visits : Session → List Visit)
    (sites : List Site) : Prop where
  leads : ∀ session, Leads engine session (visits session) (step.run session).2
  ordered : ∀ session, (visits session).map Visit.site <+: sites
  complete : ∀ session a, (step.run session).1 = .ok a →
    (visits session).map Visit.site = sites ∧
      ∀ visit ∈ visits session, ∃ v, (visit.ran engine).1 = .ok v

namespace Covers

variable {α β : Type} {engine : Engine} {step : Eval α} {visits : Session → List Visit}
  {sites more : List Site}

theorem of_notes (h : Notes step) : Covers engine step (fun _ => []) [] where
  leads := h
  ordered _ := List.prefix_rfl
  complete _ _ _ := ⟨rfl, by simp⟩

theorem bind {next : α → Eval β} {nextVisits : α → Session → List Visit}
    (h : Covers engine step visits sites)
    (hnext : ∀ a, Covers engine (next a) (nextVisits a) more) :
    Covers engine (step >>= next)
      (fun session => visits session ++ visitsAfter (step.run session) nextVisits)
      (sites ++ more) := by
  -- either the step fails and its visits are all, or it succeeds and both parts are known
  have hcases : ∀ session,
      (∃ e reached, step.run session = (.error e, reached) ∧
        (step >>= next).run session = (.error e, reached) ∧
        visitsAfter (step.run session) nextVisits = []) ∨
      ∃ a reached, step.run session = (.ok a, reached) ∧
        (step >>= next).run session = (next a).run reached ∧
        visitsAfter (step.run session) nextVisits = nextVisits a reached := by
    intro session
    rw [run_bind]
    generalize step.run session = ran
    obtain ⟨e | a, reached⟩ := ran
    · exact .inl ⟨e, reached, rfl, rfl, rfl⟩
    · exact .inr ⟨a, reached, rfl, rfl, rfl⟩
  refine ⟨fun session => ?_, fun session => ?_, fun session b hb => ?_⟩
  · have hfirst := h.leads session
    rcases hcases session with ⟨e, reached, hran, hboth, hnone⟩ | ⟨a, reached, hran, hboth, hsome⟩
    · rw [hnone, hboth, List.append_nil]
      rwa [hran] at hfirst
    · rw [hsome, hboth]
      rw [hran] at hfirst
      exact hfirst.append (h.complete session a (by rw [hran])).2 ((hnext a).leads reached)
  · rw [List.map_append]
    rcases hcases session with ⟨e, reached, hran, hboth, hnone⟩ | ⟨a, reached, hran, hboth, hsome⟩
    · rw [hnone, List.map_nil, List.append_nil]
      exact (h.ordered session).trans (List.prefix_append _ _)
    · rw [hsome, (h.complete session a (by rw [hran])).1]
      exact (List.prefix_append_right_inj _).2 ((hnext a).ordered reached)
  · rcases hcases session with ⟨e, reached, hran, hboth, hnone⟩ | ⟨a, reached, hran, hboth, hsome⟩
    · rw [hboth] at hb
      cases hb
    · rw [hboth] at hb
      obtain ⟨hsites, hok⟩ := h.complete session a (by rw [hran])
      obtain ⟨hmore, hmoreOk⟩ := (hnext a).complete reached b hb
      rw [hsome, List.map_append, hsites, hmore]
      exact ⟨rfl, List.forall_mem_append.2 ⟨hok, hmoreOk⟩⟩

theorem bind_notes {next : α → Eval β} (h : Covers engine step visits sites)
    (hnext : ∀ a, Notes (next a)) : Covers engine (step >>= next) visits sites := by
  have hjoined := h.bind fun a => of_notes (hnext a)
  rwa [append_visitsAfter_nil, List.append_nil] at hjoined

theorem report_bind {next : Eval β} (events : List Event) (h : Covers engine next visits sites) :
    Covers engine (report events >>= fun _ => next)
      (fun session => visits (session.after [.report events])) sites := by
  have hreport : Notes (report events) := Notes.closed.report fun _ _ _ => trivial
  have hjoined := (of_notes hreport).bind fun _ => h
  exact hjoined

theorem mapM {step : α → Eval Value} {visits : α → Session → List Visit} {sites : α → List Site}
    (items : List α) (h : ∀ item, Covers engine (step item) (visits item) (sites item)) :
    Covers engine (items.mapM step) (visitsOver step visits items) (items.flatMap sites) := by
  induction items with
  | nil => exact of_notes (Notes.closed.pure [])
  | cons item rest ih =>
    rw [List.mapM_cons]
    exact (h item).bind fun v => ih.bind_notes fun _ => Notes.closed.pure _

end Covers

theorem place_notes (result value : Value) (target : Path) : Notes (place result value target) :=
  Notes.closed.place _ _ _ ((Permits.free _ _ _).allows _)

theorem actIfAny_notes (engine : Engine) (action : Option Action) (value scope : Value)
    (target : String) : Notes (engine.actIfAny action value scope target) :=
  Notes.closed.actIfAny engine (fun action _ => (Permits.free _ _ _).acts action) _ _ _

theorem fieldValue_covers (engine : Engine) (rule : FieldRule) (current parent : Value) :
    Covers engine (engine.fieldValue rule current parent)
      (fun session => [⟨⟨rule, current, parent⟩, session⟩]) [⟨rule, current, parent⟩] where
  leads session := ⟨.refl session, fun h => absurd rfl h, .refl _⟩
  ordered _ := List.prefix_rfl
  complete session v h := ⟨rfl, by
    intro visit hvisit
    rw [List.mem_singleton.1 hvisit]
    exact ⟨v, h⟩⟩

theorem loopValue_congr_of_not_items (engine : Engine) (evaluate evaluate' : Value → Eval Value)
    {source : Path} (target : Path) (action : Option Action) {current : Value}
    (h : ∀ items, source.read current ≠ .ok (.array items)) :
    engine.loopValue evaluate source target action current =
      engine.loopValue evaluate' source target action current := by
  unfold loopValue Eval.read
  unfold Path.read at h
  cases hread : Path.readSegments current source.segments with
  | error e => rfl
  | ok v =>
    cases v with
    | array items => exact absurd hread (h items)
    | null | bool _ | number _ | string _ | object _ => rfl

theorem loopValue_notes (engine : Engine) (evaluate : Value → Eval Value) {source : Path}
    (target : Path) (action : Option Action) {current : Value}
    (h : ∀ items, source.read current ≠ .ok (.array items)) :
    Notes (engine.loopValue evaluate source target action current) := by
  rw [loopValue_congr_of_not_items engine evaluate (fun _ => pure .null) target action h]
  have hfree := Permits.free True False False
  exact Notes.closed.loopValue engine _ _ (fun action _ => hfree.acts action) _ hfree.misses
    fun _ => Notes.closed.pure _

theorem loopValue_covers (engine : Engine) {evaluate : Value → Eval Value}
    {visits : Value → Session → List Visit} {sites : Value → List Site} (source target : Path)
    (action : Option Action) (current : Value)
    (h : ∀ item, Covers engine (evaluate item) (visits item) (sites item)) :
    Covers engine (engine.loopValue evaluate source target action current)
      (fun session => match source.read current with
        | .ok (.array items) =>
          visitsOver evaluate visits items (session.after (loopEntry source target items))
        | _ => [])
      (match source.read current with
        | .ok (.array items) => items.flatMap sites
        | _ => []) := by
  split
  · rename_i items hitems
    rw [loopValue_items engine target action hitems]
    have hcollected := (Covers.mapM items h).bind_notes fun documents =>
      actIfAny_notes engine action (.array documents) current target.text
    exact (hcollected.report_bind _).report_bind _
  · rename_i hother
    exact .of_notes (loopValue_notes engine evaluate target action hother)

mutual

theorem evaluateRule_covers (engine : Engine) : ∀ (rule : Rule) (current parent result : Value),
    Covers engine (engine.evaluateRule rule current parent result)
      (engine.visits rule current parent) (rule.sites current parent)
  | .field rule, current, parent, result => by
    rw [evaluateRule]
    exact (fieldValue_covers engine rule current parent).bind_notes fun v => place_notes _ _ _
  | .group rules, current, parent, result => by
    rw [evaluateRule]
    exact (evaluateRules_covers engine rules current parent .empty).bind_notes fun _ =>
      Notes.closed.pure _
  | .loop source target rules action, current, parent, result => by
    rw [evaluateRule]
    refine (loopValue_covers engine source target action current fun item =>
      evaluateRules_covers engine rules item current .empty).bind_notes fun v => ?_
    exact Notes.closed.bind (place_notes _ _ _) fun _ => Notes.closed.pure _

theorem evaluateRules_covers (engine : Engine) :
    ∀ (rules : List Rule) (current parent result : Value),
    Covers engine (engine.evaluateRules rules current parent result)
      (engine.visitsAll rules current parent result) (Rule.sitesAll rules current parent)
  | [], current, parent, result => by
    rw [evaluateRules]
    exact .of_notes (Notes.closed.pure _)
  | rule :: rest, current, parent, result => by
    rw [evaluateRules]
    exact (evaluateRule_covers engine rule current parent result).bind fun reached =>
      evaluateRules_covers engine rest current parent reached

end

/-- The evaluation of a mapping goes from visit to visit, which are for the sites of its rules in
order, all of them if it succeeds. -/
theorem run_covers (engine : Engine) (mapping : Mapping) (source : Value) :
    Covers engine (engine.document mapping source) (engine.visitsOf mapping source)
      (Rule.sitesAll mapping.rules source source) :=
  (evaluateRules_covers engine mapping.rules source source .empty).report_bind _

end Engine

end PayloadMapping
