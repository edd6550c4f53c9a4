import PayloadMapping.Proofs.Evaluation.Change
import PayloadMapping.Proofs.Evaluation.Closed

set_option autoImplicit false

/-!
# Traces of evaluations

A step of an evaluation looks at its session for the cached values only. From all sessions with
the same cached values it ends in the same way and makes the same changes, which are its trace.
`evaluateRules_makes` says so of every list of rules, and that rules which keep nothing in the
cache make no change to it.
-/

namespace PayloadMapping

namespace Change

/-- The change notes diagnostics of the given kinds only, and keeps a value in the cache only if
`caches` holds. -/
def Within (kinds : DiagnosticKind → Prop) (caches : Prop) : Change → Prop
  | .note _ diagnostic => kinds diagnostic.kind
  | .remember _ _ => caches
  | .report _ | .recordId _ _ => True

theorem kinds_of_within {kinds : DiagnosticKind → Prop} {caches : Prop} {changes : List Change}
    (h : ∀ change ∈ changes, change.Within kinds caches) :
    ∀ d ∈ changes.filterMap Change.diagnostic?, kinds d.kind := by
  intro d hd
  obtain ⟨change, hchange, hdiagnostic⟩ := List.mem_filterMap.1 hd
  have hwithin := h change hchange
  cases change with
  | note event diagnostic =>
    cases hdiagnostic
    exact hwithin
  | report _ | recordId _ _ | remember _ _ => cases hdiagnostic

theorem foldl_cacheAfter {kinds : DiagnosticKind → Prop} (changes : List Change)
    (h : ∀ change ∈ changes, change.Within kinds False) (cache : Fields Value) :
    changes.foldl cacheAfter cache = cache := by
  induction changes with
  | nil => rfl
  | cons change changes ih =>
    have hrest := ih fun c hc => h c (List.mem_cons_of_mem _ hc)
    have hfirst := h change List.mem_cons_self
    cases change with
    | remember key value => exact hfirst.elim
    | report _ | note _ _ | recordId _ _ => exact hrest

end Change

namespace Eval

variable {α β : Type}

theorem run_bind (step : Eval α) (next : α → Eval β) (session : Session) :
    (step >>= next).run session = match step.run session with
      | (.ok a, reached) => (next a).run reached
      | (.error e, reached) => (.error e, reached) := by
  change (ExceptT.bindCont next (step.run session).1).run (step.run session).2 = _
  rcases step.run session with ⟨_ | a, reached⟩ <;> rfl

theorem run_context_bind (next : Context → Eval β) (session : Session) :
    (context >>= next).run session = (next session.context).run session := rfl

def Traced (step : Eval α) (cache : Fields Value) (outcome : Except EngineError α)
    (changes : List Change) : Prop :=
  ∀ session : Session, session.context.cache = cache →
    step.run session = (outcome, session.after changes)

namespace Traced

variable {step : Eval α} {next : α → Eval β} {cache : Fields Value} {changes : List Change}

theorem pure (a : α) : Traced (Pure.pure a : Eval α) cache (.ok a) [] := fun _ _ => rfl

theorem throw (e : EngineError) : Traced (MonadExcept.throw e : Eval α) cache (.error e) [] :=
  fun _ _ => rfl

theorem bind_ok {a : α} {outcome : Except EngineError β} {more : List Change}
    (h : Traced step cache (.ok a) changes)
    (hnext : Traced (next a) (changes.foldl Change.cacheAfter cache) outcome more) :
    Traced (step >>= next) cache outcome (changes ++ more) := by
  intro session hcache
  have hreached := hnext (session.after changes) (by rw [Session.after_cache, hcache])
  rw [run_bind, h session hcache, Session.after_append]
  exact hreached

theorem bind_error {e : EngineError} (h : Traced step cache (.error e) changes) :
    Traced (step >>= next) cache (.error e) changes := by
  intro session hcache
  rw [run_bind, h session hcache]

theorem report (events : List Event) :
    Traced (Eval.report events) cache (.ok ()) [.report events] := fun _ _ => rfl

theorem report_bind {next : Eval β} {outcome : Except EngineError β} (events : List Event)
    (h : Traced next cache outcome changes) :
    Traced (Eval.report events >>= fun _ => next) cache outcome (.report events :: changes) :=
  (report events).bind_ok h

theorem note (event : Event) (diagnostic : Diagnostic) :
    Traced (Eval.note event diagnostic) cache (.ok ()) [.note event diagnostic] :=
  fun _ _ => rfl

theorem recordId (target : String) (id : Value) :
    Traced (Eval.recordId target id) cache (.ok ()) [.recordId target id] := by
  intro session _
  unfold Eval.recordId
  rw [run_context_bind]
  by_cases h : session.context.isNewId id = true
  · rw [if_pos h, Session.after_cons, Session.after_nil, Change.apply, if_pos h]
    rfl
  · rw [if_neg h, Session.after_cons, Session.after_nil, Change.apply, if_neg h]
    rfl

theorem remember (key : String) (value : Value) :
    Traced (Eval.remember key value) cache (.ok ()) [.remember key value] := by
  intro session _
  unfold Eval.remember
  rw [run_context_bind]
  by_cases h : Fields.contains key session.context.cache = true
  · rw [if_pos h, Session.after_cons, Session.after_nil, Change.apply, if_pos h]
    rfl
  · rw [if_neg h, Session.after_cons, Session.after_nil, Change.apply, if_neg h]
    rfl

end Traced

/-! ## Properties of single runs -/

def Permits.Lets (permits : Permits) : Change → Prop
  | .report events => ∀ event ∈ events, event.level = .warn → permits.warns event
  | .note event d => event.Reports d ∧ permits.notes d
  | .recordId _ _ => permits.records
  | .remember _ _ => permits.remembers

/-- A relation between the session in which a step begins, and its outcome with the session in
which it ends, is a closed property if it holds where nothing happens, of permitted errors and
changes, and of one run after another. -/
theorem Closed.of_runs {permits : Permits}
    {R : {α : Type} → Session → Except EngineError α × Session → Prop}
    (hpure : ∀ {α : Type} (a : α) session, R session (.ok a, session))
    (hthrow : ∀ {α : Type} {e} session, permits.ends e → @R α session (.error e, session))
    (herror : ∀ {α β : Type} {e session reached},
      @R α session (.error e, reached) → @R β session (.error e, reached))
    (htrans : ∀ {α β : Type} {a : α} {session middle} {ran : Except EngineError β × Session},
      R session (.ok a, middle) → R middle ran → R session ran)
    (hchange : ∀ change, permits.Lets change →
      ∀ session, R session (.ok (), change.apply session)) :
    Closed permits fun step => ∀ session, R session (step.run session) where
  pure := hpure
  throw h session := hthrow session h
  bind := by
    intro α β step next h hnext session
    have hfirst := h session
    rw [run_bind]
    generalize step.run session = ran at hfirst ⊢
    obtain ⟨e | a, middle⟩ := ran
    · exact herror hfirst
    · exact htrans hfirst (hnext a middle)
  report h session := hchange (.report _) h session
  note hreports hnote session := hchange (.note _ _) ⟨hreports, hnote⟩ session
  look _ _ key _ _ hfound hmissed session := by
    rw [run_context_bind]
    split
    · exact hfound _ session
    · exact hmissed session
  recordId h target id session := by
    rw [Traced.recordId target id session rfl]
    exact hchange (.recordId target id) h session
  remember h key value session := by
    rw [Traced.remember key value session rfl]
    exact hchange (.remember key value) h session

/-! ## Traces of steps -/

/-- The step has a trace for all cached values, with changes of the given sorts only. -/
def Makes (kinds : DiagnosticKind → Prop) (caches : Prop) (step : Eval α) : Prop :=
  ∀ cache : Fields Value, ∃ outcome changes, Traced step cache outcome changes ∧
    ∀ change ∈ changes, change.Within kinds caches

namespace Makes

variable {kinds : DiagnosticKind → Prop} {caches : Prop} {step : Eval α} {next : α → Eval β}

theorem pure (a : α) : Makes kinds caches (Pure.pure a : Eval α) :=
  fun _ => ⟨_, [], .pure a, by simp⟩

theorem throw (e : EngineError) : Makes kinds caches (MonadExcept.throw e : Eval α) :=
  fun _ => ⟨_, [], .throw e, by simp⟩

theorem report (events : List Event) : Makes kinds caches (Eval.report events) :=
  fun _ => ⟨_, _, .report events, by simp [Change.Within]⟩

theorem note (event : Event) {diagnostic : Diagnostic} (h : kinds diagnostic.kind) :
    Makes kinds caches (Eval.note event diagnostic) :=
  fun _ => ⟨_, _, .note event diagnostic, by simpa [Change.Within] using h⟩

theorem recordId (target : String) (id : Value) :
    Makes kinds caches (Eval.recordId target id) :=
  fun _ => ⟨_, _, .recordId target id, by simp [Change.Within]⟩

theorem remember (key : String) (value : Value) (h : caches) :
    Makes kinds caches (Eval.remember key value) :=
  fun _ => ⟨_, _, .remember key value, by simpa [Change.Within] using h⟩

theorem bind (h : Makes kinds caches step) (hnext : ∀ a, Makes kinds caches (next a)) :
    Makes kinds caches (step >>= next) := by
  intro cache
  obtain ⟨outcome, changes, htrace, hwithin⟩ := h cache
  cases outcome with
  | error e => exact ⟨_, changes, htrace.bind_error, hwithin⟩
  | ok a =>
    obtain ⟨final, more, hmore, hmoreWithin⟩ :=
      hnext a (changes.foldl Change.cacheAfter cache)
    refine ⟨final, changes ++ more, htrace.bind_ok hmore, ?_⟩
    intro change hc
    rcases List.mem_append.1 hc with hc | hc
    · exact hwithin change hc
    · exact hmoreWithin change hc

/-- Looking at the cached values is all that a step may do with the context. -/
theorem context_bind {next : Context → Eval β}
    (hcache : ∀ context context', context.cache = context'.cache → next context = next context')
    (h : ∀ context, Makes kinds caches (next context)) :
    Makes kinds caches (Eval.context >>= next) := by
  intro cache
  obtain ⟨outcome, changes, htrace, hwithin⟩ := h { cache := cache } cache
  refine ⟨outcome, changes, ?_, hwithin⟩
  intro session hsession
  rw [run_context_bind, hcache session.context { cache := cache } hsession]
  exact htrace session hsession

def permits (kinds : DiagnosticKind → Prop) (caches : Prop) : Permits :=
  { notes := fun d => kinds d.kind, remembers := caches }

theorem allows {kind : DiagnosticKind} (h : kinds kind) : (permits kinds caches).Allows kind := by
  rintro d rfl _
  exact h

theorem starts (engine : Engine) (rule : FieldRule) : (permits kinds caches).Starts engine rule :=
  ⟨fun _ _ _ _ _ => trivial, fun _ _ _ _ _ _ _ _ => trivial⟩

theorem acts (engine : Engine) (action : Action) (h : kinds .actionFailed) :
    (permits kinds caches).Acts engine action where
  warns _ _ _ _ _ := trivial
  strict _ _ _ _ _ _ := trivial
  lenient _ _ _ _ _ _ := h

theorem closed : Closed (permits kinds caches) (Makes kinds caches) where
  pure := pure
  throw _ := throw _
  bind := bind
  report _ := report _
  note _ := note _
  look _ _ key _ _ hfound hmissed := by
    refine context_bind ?_ fun c => ?_
    · intro context context' hcache
      rw [hcache]
    · split
      · exact hfound _
      · exact hmissed
  recordId _ := recordId
  remember hcaches key value := remember key value hcaches

end Makes

/-- The traces that the steps for all `a` with `p a` have for the same cached values, where they
keep these values as they are. -/
structure Traces (step : α → Eval Value) (p : α → Prop) (kinds : DiagnosticKind → Prop)
    (cache : Fields Value) where
  outcome : α → Except EngineError Value
  changes : α → List Change
  traced : ∀ a, p a → Traced (step a) cache (outcome a) (changes a)
  within : ∀ a, p a → ∀ change ∈ changes a, change.Within kinds False

namespace Traces

variable {step : α → Eval Value} {p : α → Prop} {kinds : DiagnosticKind → Prop}
  {cache : Fields Value}

theorem nonempty_of_makes (h : ∀ a, p a → Makes kinds False (step a)) :
    Nonempty (Traces step p kinds cache) := by
  have htraces : ∀ a, ∃ outcome changes, p a → Traced (step a) cache outcome changes ∧
      ∀ change ∈ changes, change.Within kinds False := by
    intro a
    by_cases ha : p a
    · obtain ⟨outcome, changes, htrace⟩ := h a ha cache
      exact ⟨outcome, changes, fun _ => htrace⟩
    · exact ⟨.ok .null, [], fun hpa => absurd hpa ha⟩
  choose outcome changes htrace using htraces
  exact ⟨outcome, changes, fun a ha => (htrace a ha).1, fun a ha => (htrace a ha).2⟩

variable (traces : Traces step p kinds cache)

theorem kept {a : α} (ha : p a) :
    (traces.changes a).foldl Change.cacheAfter cache = cache :=
  Change.foldl_cacheAfter _ (traces.within a ha) cache

def result (a : α) : Value := (traces.outcome a).toOption.getD .null

theorem outcome_eq_result {a : α} (h : ∃ v, traces.outcome a = .ok v) :
    traces.outcome a = .ok (traces.result a) := by
  obtain ⟨v, hv⟩ := h
  rw [result, hv]
  rfl

theorem traced_result {a : α} (ha : p a) (h : ∃ v, traces.outcome a = .ok v) :
    Traced (step a) cache (.ok (traces.result a)) (traces.changes a) :=
  traces.outcome_eq_result h ▸ traces.traced a ha

end Traces

/-! ## The traces of the parts of an evaluation -/

section

variable {kinds : DiagnosticKind → Prop} {caches : Prop}

theorem read_makes (source : Value) (segments : List String) :
    Makes kinds caches (read source segments) := Makes.closed.read _ _

theorem noteUnresolved_makes (target : String) (error : PathError) (isOptional : Bool)
    (hmissing : kinds .missingField) (hmismatch : kinds .structuralMismatch) :
    Makes kinds caches (noteUnresolved target error isOptional) :=
  Makes.closed.noteUnresolved _ _ _ ⟨Makes.allows hmissing, Makes.allows hmismatch⟩

theorem place_makes (result value : Value) (target : Path) (hwrite : kinds .writeFailed) :
    Makes kinds caches (place result value target) :=
  Makes.closed.place _ _ _ (Makes.allows hwrite)

theorem keep_makes (rule : FieldRule) (value : Value) (hcaches : rule.addToCache = true → caches) :
    Makes kinds caches (Engine.keep rule value) :=
  Makes.closed.keep _ _ (fun _ => trivial) hcaches

end

end Eval

namespace Rule

mutual

def caches : Rule → Bool
  | .field rule => rule.addToCache
  | .group rules => cachesAny rules
  | .loop _ _ rules _ => cachesAny rules

def cachesAny : List Rule → Bool
  | [] => false
  | rule :: rest => caches rule || cachesAny rest

end

mutual

theorem caches_of_mem_fields : ∀ {rule : Rule} {inner : FieldRule}, inner ∈ rule.fields →
    inner.addToCache = true → rule.caches = true
  | .field rule, inner, hmem, h => by
    rw [List.mem_singleton.1 hmem] at h
    exact h
  | .group rules, inner, hmem, h => by
    rw [fields] at hmem
    exact cachesAny_of_mem_fieldsAll hmem h
  | .loop _ _ rules _, inner, hmem, h => by
    rw [fields] at hmem
    exact cachesAny_of_mem_fieldsAll hmem h

theorem cachesAny_of_mem_fieldsAll : ∀ {rules : List Rule} {inner : FieldRule},
    inner ∈ fieldsAll rules → inner.addToCache = true → cachesAny rules = true
  | [], inner, hmem, _ => by cases hmem
  | rule :: rest, inner, hmem, h => by
    rw [cachesAny, Bool.or_eq_true]
    rcases List.mem_append.1 hmem with hmem | hmem
    · exact .inl (caches_of_mem_fields hmem h)
    · exact .inr (cachesAny_of_mem_fieldsAll hmem h)

end

end Rule

namespace Engine

open Eval

variable {kinds : DiagnosticKind → Prop} {caches : Prop}

theorem start_makes (engine : Engine) (rule : FieldRule) (current parent : Value) :
    Makes kinds caches (engine.start rule current parent) :=
  Makes.closed.start engine _ _ _ (Makes.starts engine rule)

/-- A field rule keeps its value only if it asks so, and no write fails before its value is
there. -/
theorem fieldValue_makes (engine : Engine) (rule : FieldRule) (current parent : Value)
    (hcaches : rule.addToCache = true → caches) :
    Makes (· ≠ .writeFailed) caches (engine.fieldValue rule current parent) :=
  Makes.closed.fieldValue engine _ _ _ ⟨Makes.allows (by simp), Makes.allows (by simp)⟩
    (Makes.starts engine rule) (fun action _ => Makes.acts engine action (by simp))
    (fun _ => trivial) hcaches

theorem evaluateRules_makes (engine : Engine) (rules : List Rule) (current parent result : Value)
    (hcaches : Rule.cachesAny rules = true → caches) :
    Makes (fun _ => True) caches (engine.evaluateRules rules current parent result) := by
  have hadmits : (Makes.permits (fun _ => True) caches).Admits engine rules :=
    { allows := fun _ _ => Makes.allows trivial
      starts := fun rule _ => Makes.starts engine rule
      acts := fun _ _ action _ => Makes.acts engine action trivial
      records := fun _ _ _ => trivial
      remembers := fun _ hrule h => hcaches (Rule.cachesAny_of_mem_fieldsAll hrule h) }
  exact Makes.closed.evaluateRules engine rules hadmits current parent result

theorem document_makes (engine : Engine) (mapping : Mapping) (source : Value) :
    Makes (fun _ => True) True (engine.document mapping source) :=
  (Makes.report _).bind fun _ => evaluateRules_makes engine _ _ _ _ fun _ => trivial

theorem exists_run_eq_after (engine : Engine) (mapping : Mapping) (source : Value)
    (session : Session) :
    ∃ changes, (engine.run mapping source session).2 = session.after changes := by
  obtain ⟨outcome, changes, htrace, _⟩ := document_makes engine mapping source session.context.cache
  exact ⟨changes, congrArg Prod.snd (htrace session rfl)⟩

end Engine

end PayloadMapping
