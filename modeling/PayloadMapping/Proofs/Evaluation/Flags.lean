import PayloadMapping.Proofs.Evaluation.Bounds
import PayloadMapping.Proofs.Evaluation.Isolation
import PayloadMapping.Proofs.Evaluation.Kept

set_option autoImplicit false

/-!
# Flags that leave the document alone

Two mappings whose field rules differ only in flags give the same document, as far as nothing
looks at what the flags change: `fromParent` outside of loops, where the parent is the subtree
itself, and `addToCache` if no rule looks in the cache. The flags then show in the ids, the cached
values, and in how severe the diagnostics of failed lookups are.
-/

namespace PayloadMapping

structure FieldRule.Twins (rule rule' : FieldRule) : Prop where
  source : rule'.source = rule.source
  target : rule'.target = rule.target
  action : rule'.action = rule.action
  defaultValue : rule'.defaultValue = rule.defaultValue

namespace FieldRule

def unresolved (rule : FieldRule) (e : PathError) : Diagnostic :=
  ⟨if rule.isOptional then .debug else .warning,
    if e.isMissing then .missingField else .structuralMismatch, rule.target.text, e.message⟩

end FieldRule

namespace Rule

mutual

/-- The rules differ in flags of their field rules only: in `addToCache` only if nothing `looks`
in the cache, and in `fromParent` only where they are not `looped`. -/
inductive Twins (looks : Prop) : Prop → Rule → Rule → Prop
  | field {looped : Prop} {rule rule' : FieldRule} (twins : rule.Twins rule')
      (cached : looks → rule'.addToCache = rule.addToCache)
      (parent : looped → rule'.fromParent = rule.fromParent) :
      Twins looks looped (.field rule) (.field rule')
  | group {looped : Prop} {rules rules' : List Rule} (twins : TwinsAll looks looped rules rules') :
      Twins looks looped (.group rules) (.group rules')
  | loop {looped : Prop} (source target : Path) {rules rules' : List Rule}
      (action : Option Action) (twins : TwinsAll looks True rules rules') :
      Twins looks looped (.loop source target rules action) (.loop source target rules' action)

inductive TwinsAll (looks : Prop) : Prop → List Rule → List Rule → Prop
  | nil {looped : Prop} : TwinsAll looks looped [] []
  | cons {looped : Prop} {rule rule' : Rule} {rest rest' : List Rule}
      (first : Twins looks looped rule rule') (more : TwinsAll looks looped rest rest') :
      TwinsAll looks looped (rule :: rest) (rule' :: rest')

end

end Rule

/-- Visits in two evaluations by rules that differ in flags, for the same subtree, with the same
outcome of the lookup. -/
structure Visit.Twins (engine : Engine) (visit visit' : Visit) : Prop where
  rule : visit.site.rule.Twins visit'.site.rule
  current : visit'.site.current = visit.site.current
  found : visit'.found engine = visit.found engine

namespace Engine

/-- Visits of two evaluations one by one, with the diagnostics that these add. Where the lookup
fails each has the diagnostic that its own rule makes of the failure; no other diagnostic differs. -/
inductive SameNotes (engine : Engine) :
    List Visit → List Visit → List Diagnostic → List Diagnostic → Prop
  | nil : SameNotes engine [] [] [] []
  | note (d : Diagnostic) {visits visits' : List Visit} {notes notes' : List Diagnostic}
      (rest : SameNotes engine visits visits' notes notes') :
      SameNotes engine visits visits' (d :: notes) (d :: notes')
  | settled {visit visit' : Visit} {visits visits' : List Visit} {notes notes' : List Diagnostic}
      (twins : visit.Twins engine visit')
      (settled : ∀ e, visit.found engine ≠ .ok (.error e))
      (rest : SameNotes engine visits visits' notes notes') :
      SameNotes engine (visit :: visits) (visit' :: visits') notes notes'
  | missed {visit visit' : Visit} {visits visits' : List Visit} {notes notes' : List Diagnostic}
      {e : PathError} (twins : visit.Twins engine visit')
      (missed : visit.found engine = .ok (.error e))
      (rest : SameNotes engine visits visits' notes notes') :
      SameNotes engine (visit :: visits) (visit' :: visits')
        (visit.site.rule.unresolved e :: notes) (visit'.site.rule.unresolved e :: notes')

namespace SameNotes

variable {engine : Engine} {visits visits' more more' : List Visit}
  {notes notes' added added' : List Diagnostic}

theorem append (h : SameNotes engine visits visits' notes notes')
    (hmore : SameNotes engine more more' added added') :
    SameNotes engine (visits ++ more) (visits' ++ more') (notes ++ added) (notes' ++ added') := by
  induction h with
  | nil => exact hmore
  | note d _ ih => exact .note d ih
  | settled twins settled _ ih => exact .settled twins settled ih
  | missed twins missed _ ih => exact .missed twins missed ih

theorem same (notes : List Diagnostic) : SameNotes engine [] [] notes notes := by
  induction notes with
  | nil => exact .nil
  | cons d _ ih => exact .note d ih

theorem agree (h : SameNotes engine visits visits' notes notes') :
    List.Forall₂ (fun d d' => d'.kind = d.kind ∧ d'.target = d.target ∧ d'.message = d.message)
      notes notes' := by
  induction h with
  | nil => exact .nil
  | note d _ ih => exact .cons ⟨rfl, rfl, rfl⟩ ih
  | settled _ _ _ ih => exact ih
  | missed twins _ _ ih =>
    refine .cons ⟨rfl, ?_, rfl⟩ ih
    change Path.text _ = Path.text _
    rw [twins.rule.target]

end SameNotes

end Engine

namespace Eval

variable {α β : Type} {engine : Engine} {looks : Prop}

/-- From two sessions the step ends in the same way and makes the same changes. The sessions may
differ in everything but the cached values, and in these if nothing `looks` at them. -/
def Steady (looks : Prop) (step : Eval α) : Prop :=
  ∀ cache cache' : Fields Value, (looks → cache' = cache) → ∃ outcome changes,
    Traced step cache outcome changes ∧ Traced step cache' outcome changes

theorem Steady.of_blind {step : Eval α} (h : Blind step) : Steady looks step := by
  intro cache cache' _
  obtain ⟨outcome, changes, htrace⟩ := h
  exact ⟨outcome, changes, htrace cache, htrace cache'⟩

theorem Steady.of_makes {kinds : DiagnosticKind → Prop} {caches : Prop} {step : Eval α}
    (hlooks : looks) (h : Makes kinds caches step) : Steady looks step := by
  intro cache cache' hcache
  obtain ⟨outcome, changes, htrace, _⟩ := h cache
  exact ⟨outcome, changes, htrace, hcache hlooks ▸ htrace⟩

/-- The steps end in the same way from two sessions that agree in the cached values, if something
`looks` at them; then they agree in them again. Their diagnostics are the same but for how severe
they are at their visits. -/
def Parallel (engine : Engine) (looks : Prop) (step step' : Eval α)
    (visits visits' : Session → List Visit) : Prop :=
  ∀ session session' : Session, (looks → session'.context.cache = session.context.cache) →
    (step'.run session').1 = (step.run session).1 ∧
    (looks → (step'.run session').2.context.cache = (step.run session).2.context.cache) ∧
    ∃ notes notes',
      (step.run session).2.context.diagnostics = session.context.diagnostics ++ notes ∧
      (step'.run session').2.context.diagnostics = session'.context.diagnostics ++ notes' ∧
      engine.SameNotes (visits session) (visits' session') notes notes'

namespace Parallel

variable {step step' : Eval α} {visits visits' : Session → List Visit}

theorem of_steady (h : Steady looks step) :
    Parallel engine looks step step (fun _ => []) fun _ => [] := by
  intro session session' hcache
  obtain ⟨outcome, changes, htrace, htrace'⟩ :=
    h session.context.cache session'.context.cache hcache
  rw [htrace session rfl, htrace' session' rfl]
  refine ⟨rfl, fun hlooks => ?_, _, _, session.after_diagnostics changes,
    session'.after_diagnostics changes, .same _⟩
  rw [Session.after_cache, Session.after_cache, hcache hlooks]

theorem of_blind (h : Blind step) : Parallel engine looks step step (fun _ => []) fun _ => [] :=
  of_steady (.of_blind h)

theorem pure (a : α) : Parallel engine looks (Pure.pure a : Eval α) (Pure.pure a) (fun _ => [])
    fun _ => [] := of_blind (Blind.closed.pure a)

theorem bind {next next' : α → Eval β} {nextVisits nextVisits' : α → Session → List Visit}
    (h : Parallel engine looks step step' visits visits')
    (hnext : ∀ a, Parallel engine looks (next a) (next' a) (nextVisits a) (nextVisits' a)) :
    Parallel engine looks (step >>= next) (step' >>= next')
      (fun session => visits session ++ Engine.visitsAfter (step.run session) nextVisits)
      (fun session => visits' session ++ Engine.visitsAfter (step'.run session) nextVisits') := by
  intro session session' hcache
  obtain ⟨houtcome, hkept, notes, notes', hnotes, hnotes', hsame⟩ := h session session' hcache
  dsimp only
  rw [run_bind, run_bind]
  generalize step.run session = ran at houtcome hkept hnotes ⊢
  generalize step'.run session' = ran' at houtcome hkept hnotes' ⊢
  obtain ⟨outcome, reached⟩ := ran
  obtain ⟨outcome', reached'⟩ := ran'
  obtain rfl : outcome' = outcome := houtcome
  cases outcome' with
  | error e =>
    refine ⟨rfl, hkept, notes, notes', hnotes, hnotes', ?_⟩
    rw [Engine.visitsAfter, Engine.visitsAfter, List.append_nil, List.append_nil]
    exact hsame
  | ok a =>
    obtain ⟨hfinal, hfinalKept, more, more', hmore, hmore', hsameMore⟩ :=
      hnext a reached reached' hkept
    dsimp only at hnotes hnotes'
    refine ⟨hfinal, hfinalKept, notes ++ more, notes' ++ more', ?_, ?_, hsame.append hsameMore⟩
    · rw [← List.append_assoc, ← hnotes]
      exact hmore
    · rw [← List.append_assoc, ← hnotes']
      exact hmore'

theorem bind_blind {next : α → Eval β} (h : Parallel engine looks step step' visits visits')
    (hnext : ∀ a, Blind (next a)) :
    Parallel engine looks (step >>= next) (step' >>= next) visits visits' := by
  have hrest : ∀ a, Parallel engine looks (next a) (next a) (fun _ => []) fun _ => [] :=
    fun a => of_blind (hnext a)
  have hjoined := h.bind hrest
  rwa [Engine.append_visitsAfter_nil, Engine.append_visitsAfter_nil] at hjoined

theorem report_bind {next next' : Eval β} {visits visits' : Session → List Visit}
    (events events' : List Event) (h : Parallel engine looks next next' visits visits') :
    Parallel engine looks (report events >>= fun _ => next) (report events' >>= fun _ => next')
      (fun session => visits (session.after [.report events]))
      fun session => visits' (session.after [.report events']) := by
  intro session session' hcache
  exact h (session.after [.report events]) (session'.after [.report events']) hcache

theorem mapM {step step' : α → Eval Value} {visits visits' : α → Session → List Visit}
    (items : List α)
    (h : ∀ item, Parallel engine looks (step item) (step' item) (visits item) (visits' item)) :
    Parallel engine looks (items.mapM step) (items.mapM step')
      (Engine.visitsOver step visits items) (Engine.visitsOver step' visits' items) := by
  induction items with
  | nil => exact pure []
  | cons item rest ih =>
    rw [List.mapM_cons, List.mapM_cons]
    exact (h item).bind fun v => ih.bind_blind fun _ => Blind.closed.pure _

end Parallel

end Eval

namespace Engine

open Eval

variable {engine : Engine} {looks looped : Prop}

theorem start_steady {rule : FieldRule} (h : engine.LooksInCache rule → looks)
    (current parent : Value) : Steady looks (engine.start rule current parent) := by
  by_cases hlooks : looks
  · have hmakes : Makes (fun _ => True) True (engine.start rule current parent) :=
      start_makes engine rule current parent
    exact .of_makes hlooks hmakes
  · refine .of_blind (Blind.closed.start engine rule current parent
      ⟨fun path hpath key rest hroute => ?_, fun _ _ _ _ _ _ _ _ => trivial⟩)
    exact hlooks (h ⟨path, hpath, key, rest, hroute⟩)

theorem place_blind (result value : Value) (target : Path) : Blind (place result value target) :=
  Blind.closed.place _ _ _ ((Permits.free _ _ _).allows _)

theorem actIfAny_blind (engine : Engine) (action : Option Action) (value scope : Value)
    (target : String) : Blind (engine.actIfAny action value scope target) :=
  Blind.closed.actIfAny engine (fun action _ => (Permits.free _ _ _).acts action) _ _ _

/-- Both rules look up the same value: where they may differ in `fromParent`, the parent is the
subtree itself. -/
theorem start_twins {rule rule' : FieldRule} (twins : rule.Twins rule')
    (hfrom : looped → rule'.fromParent = rule.fromParent) {current parent : Value}
    (hparent : ¬ looped → parent = current) :
    engine.start rule' current parent = engine.start rule current parent := by
  have hbase : (if rule'.fromParent then parent else current) =
      if rule.fromParent then parent else current := by
    by_cases hlooped : looped
    · rw [hfrom hlooped]
    · rw [hparent hlooped, ite_self, ite_self]
  unfold start
  rw [twins.source, twins.defaultValue, hbase]

theorem keep_parallel {rule rule' : FieldRule} (twins : rule.Twins rule')
    (hcached : looks → rule'.addToCache = rule.addToCache) (value : Value) :
    Parallel engine looks (keep rule value) (keep rule' value) (fun _ => []) fun _ => [] := by
  intro session session' hcache
  rw [keep_traced rule value session.context.cache session rfl,
    keep_traced rule' value session'.context.cache session' rfl]
  refine ⟨rfl, fun hlooks => ?_, [], [], ?_, ?_, .nil⟩
  · rw [Session.after_cache, Session.after_cache, hcache hlooks]
    unfold FieldRule.keeps
    rw [hcached hlooks, twins.target, List.foldl_append, List.foldl_append]
    cases rule.isUniqueId <;> cases rule'.isUniqueId <;> rfl
  · rw [Session.after_diagnostics, rule.filterMap_diagnostic_keeps]
  · rw [Session.after_diagnostics, rule'.filterMap_diagnostic_keeps]

theorem unresolved_traced (rule : FieldRule) (e : PathError) (cache : Fields Value) :
    ∃ event, Traced (do
      noteUnresolved rule.target.text e rule.isOptional
      return Value.null) cache (.ok .null) [.note event (rule.unresolved e)] := by
  unfold noteUnresolved FieldRule.unresolved
  cases rule.isOptional with
  | true => exact ⟨_, (Traced.note _ _).bind_ok (.pure _)⟩
  | false => exact ⟨_, (Traced.note _ _).bind_ok (.pure _)⟩

theorem settle_parallel {rule rule' : FieldRule} (twins : rule.Twins rule')
    (hcached : looks → rule'.addToCache = rule.addToCache) (found current : Value) :
    Parallel engine looks
      (do
        let v ← engine.actIfAny rule.action found current rule.target.text
        keep rule v
        return v)
      (do
        let v ← engine.actIfAny rule'.action found current rule'.target.text
        keep rule' v
        return v)
      (fun _ => []) fun _ => [] := by
  have hact : Blind (engine.actIfAny rule.action found current rule.target.text) :=
    actIfAny_blind engine rule.action found current rule.target.text
  have hkeep : ∀ v, Parallel engine looks (keep rule v >>= fun _ => pure v)
      (keep rule' v >>= fun _ => pure v) (fun _ => []) fun _ => [] :=
    fun v => (keep_parallel twins hcached v).bind_blind fun _ => Blind.closed.pure v
  have hboth := (Parallel.of_blind hact).bind hkeep
  rw [twins.action, twins.target]
  rwa [append_visitsAfter_nil] at hboth

theorem fieldValue_parallel {rule rule' : FieldRule} (twins : rule.Twins rule')
    (hcached : looks → rule'.addToCache = rule.addToCache)
    (hfrom : looped → rule'.fromParent = rule.fromParent)
    (hlooks : engine.LooksInCache rule → looks) {current parent : Value}
    (hparent : ¬ looped → parent = current) :
    Parallel engine looks (engine.fieldValue rule current parent)
      (engine.fieldValue rule' current parent)
      (fun session => [⟨⟨rule, current, parent⟩, session⟩])
      (fun session => [⟨⟨rule', current, parent⟩, session⟩]) := by
  intro session session' hcache
  obtain ⟨outcome, changes, htrace, htrace'⟩ :=
    start_steady hlooks current parent session.context.cache session'.context.cache hcache
  have hstart := htrace session rfl
  have hstart' := htrace' session' rfl
  rw [← start_twins twins hfrom hparent] at hstart'
  have hreached : looks → (session'.after changes).context.cache =
      (session.after changes).context.cache := by
    intro h
    rw [Session.after_cache, Session.after_cache, hcache h]
  have hvisits : Visit.Twins engine ⟨⟨rule, current, parent⟩, session⟩
      ⟨⟨rule', current, parent⟩, session'⟩ := by
    refine ⟨twins, rfl, ?_⟩
    unfold Visit.found
    rw [hstart, hstart']
  have hfound : Visit.found engine ⟨⟨rule, current, parent⟩, session⟩ = outcome :=
    congrArg Prod.fst hstart
  unfold fieldValue
  rw [run_bind, run_bind, hstart, hstart']
  -- the lookup ends the evaluation, or fails, or finds a value
  rcases outcome with e | e | v
  · refine ⟨rfl, hreached, _, _, session.after_diagnostics changes,
      session'.after_diagnostics changes, .settled hvisits ?_ (.same _)⟩
    rw [hfound]
    simp
  · obtain ⟨event, hnote⟩ := unresolved_traced rule e (session.after changes).context.cache
    obtain ⟨event', hnote'⟩ := unresolved_traced rule' e (session'.after changes).context.cache
    dsimp only
    rw [hnote _ rfl, hnote' _ rfl]
    let earlier := changes.filterMap Change.diagnostic?
    have hmissed : engine.SameNotes [_] [_] (earlier ++ [rule.unresolved e])
        (earlier ++ [rule'.unresolved e]) :=
      (SameNotes.same earlier).append (.missed hvisits hfound .nil)
    refine ⟨rfl, hreached, _, _, ?_, ?_, hmissed⟩
    · rw [← List.append_assoc, ← session.after_diagnostics changes]
      rfl
    · rw [← List.append_assoc, ← session'.after_diagnostics changes]
      rfl
  · obtain ⟨houtcome, hkept, notes, notes', hnotes, hnotes', hsame⟩ :=
      settle_parallel twins hcached v current _ _ hreached
    rw [Session.after_diagnostics, List.append_assoc] at hnotes hnotes'
    have hsettled :
        ∀ e, Visit.found engine ⟨⟨rule, current, parent⟩, session⟩ ≠ .ok (.error e) := by
      rw [hfound]
      simp
    exact ⟨houtcome, hkept, _, _, hnotes, hnotes',
      .settled hvisits hsettled ((SameNotes.same _).append hsame)⟩

theorem loopValue_parallel {evaluate evaluate' : Value → Eval Value}
    {visits visits' : Value → Session → List Visit} (source target : Path)
    (action : Option Action) (current : Value)
    (h : ∀ item, Parallel engine looks (evaluate item) (evaluate' item) (visits item)
      (visits' item)) :
    Parallel engine looks (engine.loopValue evaluate source target action current)
      (engine.loopValue evaluate' source target action current)
      (fun session => match source.read current with
        | .ok (.array items) =>
          visitsOver evaluate visits items (session.after (loopEntry source target items))
        | _ => [])
      (fun session => match source.read current with
        | .ok (.array items) =>
          visitsOver evaluate' visits' items (session.after (loopEntry source target items))
        | _ => []) := by
  split
  · rename_i items hitems
    rw [loopValue_items engine target action hitems, loopValue_items engine target action hitems]
    have hcollected := (Parallel.mapM items h).bind_blind fun documents =>
      actIfAny_blind engine action (.array documents) current target.text
    exact (hcollected.report_bind _ _).report_bind _ _
  · rename_i hother
    rw [loopValue_congr_of_not_items engine evaluate (fun _ => pure .null) target action hother,
      loopValue_congr_of_not_items engine evaluate' (fun _ => pure .null) target action hother]
    have hfree := Permits.free False True True
    exact .of_blind (Blind.closed.loopValue engine _ _ (fun a _ => hfree.acts a) _ hfree.misses
      fun _ => Blind.closed.pure _)

mutual

theorem evaluateRule_parallel : ∀ {rule rule' : Rule} {looped : Prop},
    rule.Twins looks looped rule' → (∀ field ∈ rule.fields, engine.LooksInCache field → looks) →
    ∀ current parent result : Value, (¬ looped → parent = current) →
    Parallel engine looks (engine.evaluateRule rule current parent result)
      (engine.evaluateRule rule' current parent result) (engine.visits rule current parent)
      (engine.visits rule' current parent)
  | .field rule, _, _, .field twins hcached hfrom, hlooks, current, parent, result, hparent => by
    rw [evaluateRule, evaluateRule, twins.target]
    have hrule := hlooks rule (List.mem_singleton.2 rfl)
    exact (fieldValue_parallel twins hcached hfrom hrule hparent).bind_blind fun v =>
      place_blind _ _ _
  | .group rules, _, _, .group twins, hlooks, current, parent, result, hparent => by
    rw [evaluateRule, evaluateRule]
    rw [Rule.fields] at hlooks
    exact (evaluateRules_parallel twins hlooks current parent .empty hparent).bind_blind fun _ =>
      Blind.closed.pure _
  | .loop source target rules action, _, _, .loop _ _ _ twins, hlooks, current, parent, result,
      _ => by
    rw [evaluateRule, evaluateRule]
    rw [Rule.fields] at hlooks
    have hitems : ∀ item, Parallel engine looks _ _ _ _ := fun item =>
      evaluateRules_parallel twins hlooks item current .empty fun h => absurd trivial h
    refine (loopValue_parallel source target action current hitems).bind_blind fun v => ?_
    exact (place_blind _ _ _).bind fun _ => Blind.closed.pure _

theorem evaluateRules_parallel : ∀ {rules rules' : List Rule} {looped : Prop},
    Rule.TwinsAll looks looped rules rules' →
    (∀ field ∈ Rule.fieldsAll rules, engine.LooksInCache field → looks) →
    ∀ current parent result : Value, (¬ looped → parent = current) →
    Parallel engine looks (engine.evaluateRules rules current parent result)
      (engine.evaluateRules rules' current parent result)
      (engine.visitsAll rules current parent result)
      (engine.visitsAll rules' current parent result)
  | [], _, _, .nil, _, current, parent, result, _ => by
    rw [evaluateRules]
    exact .pure result
  | rule :: rest, _, _, .cons first more, hlooks, current, parent, result, hparent => by
    obtain ⟨hrule, hrest⟩ := List.forall_mem_append.1 hlooks
    rw [evaluateRules, evaluateRules]
    refine (evaluateRule_parallel first hrule current parent result hparent).bind fun reached => ?_
    exact evaluateRules_parallel more hrest current parent reached hparent

end

theorem run_warns (engine : Engine) (mapping : Mapping) (source : Value) (session : Session) :
    ∃ added, (engine.run mapping source session).2.context.diagnostics =
        session.context.diagnostics ++ added ∧
      ∀ d ∈ added, d.kind = .actionFailed ∨ d.kind = .writeFailed → d.severity = .warning := by
  let permits : Permits :=
    { notes := fun d => d.kind = .actionFailed ∨ d.kind = .writeFailed → d.severity = .warning }
  have hadmits : permits.Admits engine mapping.rules :=
    { allows := by
        rintro _ hacted d rfl hwarns (hfailed | hfailed)
        · exact absurd hfailed hacted
        · exact hwarns hfailed
      starts := fun _ _ => ⟨fun _ _ _ _ _ => trivial, fun _ _ _ _ _ _ _ _ => trivial⟩
      acts := fun _ _ _ _ => ⟨fun _ _ _ _ _ => trivial, fun _ _ _ _ _ _ => trivial,
        fun _ _ _ _ _ _ _ => rfl⟩
      records := fun _ _ _ => trivial
      remembers := fun _ _ _ => trivial }
  exact (run_bounded hadmits source session).2

/-- Mappings whose field rules differ only in `isOptional` and `isUniqueId`, outside of loops in
`fromParent`, and in `addToCache` if none of them looks in the cache, give the same document or
error. The diagnostics that they add agree one by one in kind, target and message; they are equally
severe but for those of failed lookups, each of which is as severe as its rule has it. Failed
actions and failed writes give warnings. -/
theorem run_ignores_flags {engine : Engine} {mapping mapping' : Mapping}
    (twins : Rule.TwinsAll (∃ field ∈ Rule.fieldsAll mapping.rules, engine.LooksInCache field)
      False mapping.rules mapping'.rules) (source : Value) (session : Session) :
    let ran := engine.run mapping source session
    let ran' := engine.run mapping' source session
    ran'.1 = ran.1 ∧ ∃ added added',
      ran.2.context.diagnostics = session.context.diagnostics ++ added ∧
      ran'.2.context.diagnostics = session.context.diagnostics ++ added' ∧
      List.Forall₂ (fun d d' => d'.kind = d.kind ∧ d'.target = d.target ∧ d'.message = d.message)
        added added' ∧
      engine.SameNotes (engine.visitsOf mapping source session)
        (engine.visitsOf mapping' source session) added added' ∧
      ∀ d ∈ added ++ added', d.kind = .actionFailed ∨ d.kind = .writeFailed →
        d.severity = .warning := by
  intro ran ran'
  have hrules := evaluateRules_parallel twins (fun field hfield hlooks => ⟨field, hfield, hlooks⟩)
    source source .empty fun _ => rfl
  obtain ⟨houtcome, _, added, added', hadded, hadded', hsame⟩ :=
    hrules.report_bind [.started mapping.label mapping.rules.length]
      [.started mapping'.label mapping'.rules.length] session session fun _ => rfl
  refine ⟨houtcome, added, added', hadded, hadded', hsame.agree, hsame, ?_⟩
  have hwarns : ∀ (m : Mapping) (added : List Diagnostic),
      (engine.run m source session).2.context.diagnostics = session.context.diagnostics ++ added →
      ∀ d ∈ added, d.kind = .actionFailed ∨ d.kind = .writeFailed → d.severity = .warning := by
    intro m added hadded
    obtain ⟨_, hnoted, hwarnings⟩ := engine.run_warns m source session
    rwa [List.append_cancel_left (hnoted.symm.trans hadded)] at hwarnings
  rw [List.forall_mem_append]
  exact ⟨hwarns mapping added hadded, hwarns mapping' added' hadded'⟩

/-- A rule that misses its value, with all flags and without any. -/
theorem run_ignores_flags_missed :
    let rule : FieldRule := .copy (Path.parse "a") (Path.parse "b")
    let flagged : FieldRule := { rule with
      isOptional := true, addToCache := true, isUniqueId := true, fromParent := true }
    let mapping : Mapping := { rules := [.group [.field rule]] }
    let mapping' : Mapping := { name := some "flagged", rules := [.group [.field flagged]] }
    Rule.TwinsAll (∃ field ∈ Rule.fieldsAll mapping.rules, ({} : Engine).LooksInCache field) False
        mapping.rules mapping'.rules ∧
      (({} : Engine).run mapping' .empty {}).1 = (({} : Engine).run mapping .empty {}).1 ∧
      ((({} : Engine).run mapping .empty {}).2.context.diagnostics.map Diagnostic.severity =
        [.warning]) ∧
      (({} : Engine).run mapping' .empty {}).2.context.diagnostics.map Diagnostic.severity =
        [.debug] := by
  intro rule flagged mapping mapping'
  have hpayload : ({} : Engine).route (Path.parse "a") = .payload ["a"] := by decide
  have hblind : ¬ ∃ field ∈ Rule.fieldsAll mapping.rules, ({} : Engine).LooksInCache field := by
    rintro ⟨field, hfield, path, hpath, key, rest, hroute⟩
    obtain rfl : field = rule := List.mem_singleton.1 hfield
    obtain rfl : Path.parse "a" = path := Option.some.inj hpath
    rw [hpayload] at hroute
    cases hroute
  have htwins : Rule.TwinsAll
      (∃ field ∈ Rule.fieldsAll mapping.rules, ({} : Engine).LooksInCache field) False
      mapping.rules mapping'.rules :=
    .cons (.group (.cons (.field ⟨rfl, rfl, rfl, rfl⟩ (fun h => absurd h hblind) False.elim) .nil))
      .nil
  obtain ⟨hsame, _⟩ := run_ignores_flags htwins .empty {}
  exact ⟨htwins, hsame, rfl, rfl⟩

end Engine

end PayloadMapping
