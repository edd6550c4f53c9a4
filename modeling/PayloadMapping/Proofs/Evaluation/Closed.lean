import PayloadMapping.Engine.Evaluate
import PayloadMapping.Proofs.Mapping.Nested

set_option autoImplicit false

/-!
# Properties of evaluation steps

An evaluation is put together from few kinds of steps. A property that these have, and that two
steps one after another have when each of them has it, is a property of every part of an
evaluation: `Closed.evaluateRules`. Which steps a property allows is up to the property; a list of
rules is admitted if it allows all that their evaluation may come to.
-/

namespace PayloadMapping

def Severity.level : Severity → Level
  | .debug => .debug
  | .warning => .warn

/-- The event is that of the diagnostic: it is as severe, names the target, and carries the text
of a warning in front of its message or as its error. A value that cannot be merged into the
output has no target, and its event no field for one. -/
structure Event.Reports (event : Event) (d : Diagnostic) : Prop where
  level : event.level = d.severity.level
  text : d.severity = .warning →
    (∃ more, event.message = d.message ++ more) ∨ event.fields.lookup "error" = some d.message
  target : event.fields.lookup "to" = some d.target ∨
    event = .notMerged d.message ∧ d.kind = .writeFailed ∧ d.target = ""

namespace Eval

/-- What a property allows in the steps that have it: warnings that are reported without a note,
notes, errors that end the evaluation, looking at the cached values, recording ids and remembering
values. -/
structure Permits where
  warns : Event → Prop := fun _ => True
  notes : Diagnostic → Prop := fun _ => True
  ends : EngineError → Prop := fun _ => True
  looks : Prop := True
  records : Prop := True
  remembers : Prop := True

/-- The property holds of all permitted steps, and of two steps one after another if it holds of
each. A note comes with its own event. -/
structure Closed (permits : Permits) (P : {α : Type} → Eval α → Prop) : Prop where
  pure : ∀ {α : Type} (a : α), P (Pure.pure a)
  throw : ∀ {α : Type} {e : EngineError}, permits.ends e → P (MonadExcept.throw e : Eval α)
  bind : ∀ {α β : Type} {step : Eval α} {next : α → Eval β},
    P step → (∀ a, P (next a)) → P (step >>= next)
  report : ∀ {events : List Event}, (∀ event ∈ events, event.level = .warn → permits.warns event) →
    P (report events)
  note : ∀ {event : Event} {d : Diagnostic}, event.Reports d → permits.notes d → P (note event d)
  look : permits.looks → ∀ {α : Type} (key : String) {found : Value → Eval α} {missed : Eval α},
    (∀ v, P (found v)) → P missed → P (context >>= fun c =>
      match Fields.get? key c.cache with
      | some v => found v
      | none => missed)
  recordId : permits.records → ∀ target id, P (recordId target id)
  remember : permits.remembers → ∀ key value, P (remember key value)

/-! ## What rules ask for -/

namespace Permits

variable (permits : Permits) (engine : Engine)

/-- The notes that evaluations make of a kind; failed writes are always warnings. -/
def Allows (kind : DiagnosticKind) : Prop :=
  ∀ d : Diagnostic, d.kind = kind → (kind = .writeFailed → d.severity = .warning) → permits.notes d

structure Misses : Prop where
  missing : permits.Allows .missingField
  mismatch : permits.Allows .structuralMismatch

structure Starts (rule : FieldRule) : Prop where
  looks : ∀ path ∈ rule.source, ∀ key rest, engine.route path = .cache key rest → permits.looks
  ends : ∀ path ∈ rule.source, ∀ scope name rest e, engine.route path = .provider scope name rest →
    engine.providers.find scope name = .error e → permits.ends (.provider e)

structure Acts (action : Action) : Prop where
  warns : ∀ v scope, ∀ event ∈ action.events v scope, event.level = .warn → permits.warns event
  strict : engine.config.failOnActionError = true → ∀ v scope e, action.apply v scope = .error e →
    ∀ target, permits.ends (.action target e)
  lenient : engine.config.failOnActionError = false → ∀ v scope e,
    action.apply v scope = .error e →
    ∀ target, permits.notes ⟨.warning, .actionFailed, target, e.message⟩

/-- All that the evaluation of rules may come to is allowed. -/
structure Admits (rules : List Rule) : Prop where
  allows : ∀ kind, kind ≠ .actionFailed → permits.Allows kind
  starts : ∀ rule ∈ Rule.fieldsAll rules, permits.Starts engine rule
  acts : ∀ rule ∈ rules, ∀ action, rule.Attaches action → permits.Acts engine action
  records : ∀ rule ∈ Rule.fieldsAll rules, rule.isUniqueId = true → permits.records
  remembers : ∀ rule ∈ Rule.fieldsAll rules, rule.addToCache = true → permits.remembers

structure Free : Prop where
  warns : ∀ event, permits.warns event
  notes : ∀ d, permits.notes d
  ends : ∀ e, permits.ends e

variable {permits engine} {rule : Rule} {rules rest inner : List Rule}

theorem free (looks records remembers : Prop) :
    Free { looks := looks, records := records, remembers := remembers } :=
  ⟨fun _ => trivial, fun _ => trivial, fun _ => trivial⟩

theorem Free.allows (h : permits.Free) (kind : DiagnosticKind) : permits.Allows kind :=
  fun d _ _ => h.notes d

theorem Free.misses (h : permits.Free) : permits.Misses := ⟨h.allows _, h.allows _⟩

theorem Free.acts (h : permits.Free) (action : Action) : permits.Acts engine action where
  warns _ _ event _ _ := h.warns event
  strict _ _ _ _ _ _ := h.ends _
  lenient _ _ _ _ _ _ := h.notes _

namespace Admits

theorem misses (h : permits.Admits engine rules) : permits.Misses :=
  ⟨h.allows _ (by simp), h.allows _ (by simp)⟩

theorem inside (h : permits.Admits engine rules)
    (hfields : ∀ field ∈ Rule.fieldsAll inner, field ∈ Rule.fieldsAll rules)
    (hactions : ∀ r ∈ inner, ∀ action, r.Attaches action → ∃ outer ∈ rules, outer.Attaches action) :
    permits.Admits engine inner where
  allows := h.allows
  starts field hfield := h.starts field (hfields field hfield)
  acts r hr action hattached := by
    obtain ⟨outer, houter, hattached'⟩ := hactions r hr action hattached
    exact h.acts outer houter action hattached'
  records field hfield := h.records field (hfields field hfield)
  remembers field hfield := h.remembers field (hfields field hfield)

theorem head (h : permits.Admits engine (rule :: rest)) : permits.Admits engine [rule] :=
  h.inside (fun _ hfield => List.mem_append_left _ (by simpa [Rule.fieldsAll] using hfield))
    fun r hr _ hattached => ⟨r, by simp [List.mem_singleton.1 hr], hattached⟩

theorem tail (h : permits.Admits engine (rule :: rest)) : permits.Admits engine rest :=
  h.inside (fun _ hfield => List.mem_append_right _ hfield)
    fun r hr _ hattached => ⟨r, List.mem_cons_of_mem _ hr, hattached⟩

theorem group (h : permits.Admits engine [.group inner]) : permits.Admits engine inner :=
  h.inside (fun _ hfield => List.mem_append_left _ (by rwa [Rule.fields]))
    fun _ hr _ hattached => ⟨_, List.mem_singleton.2 rfl, .group hr hattached⟩

theorem body {source target : Path} {action : Option Action}
    (h : permits.Admits engine [.loop source target inner action]) :
    permits.Admits engine inner :=
  h.inside (fun _ hfield => List.mem_append_left _ (by rwa [Rule.fields]))
    fun _ hr _ hattached => ⟨_, List.mem_singleton.2 rfl, .body source target action hr hattached⟩

end Admits

end Permits

/-! ## What closed properties hold of -/

namespace Closed

variable {permits : Permits} {P : {α : Type} → Eval α → Prop} (h : Closed permits P)
include h

theorem report_quiet {event : Event} (hquiet : event.level ≠ .warn) : P (Eval.report [event]) :=
  h.report (List.forall_mem_singleton.2 fun hwarns => absurd hwarns hquiet)

theorem mapM {α β : Type} {step : α → Eval β} (items : List α) (hstep : ∀ item, P (step item)) :
    P (items.mapM step) := by
  induction items with
  | nil => exact h.pure []
  | cons item rest ih =>
    rw [List.mapM_cons]
    exact h.bind (hstep item) fun _ => h.bind ih fun _ => h.pure _

theorem read (source : Value) (segments : List String) : P (read source segments) := by
  unfold Eval.read
  split
  · exact h.bind (h.report_quiet (by simp [Event.level])) fun _ => h.pure _
  · exact h.pure _

theorem noteUnresolved (target : String) (error : PathError) (isOptional : Bool)
    (hmisses : permits.Misses) : P (noteUnresolved target error isOptional) := by
  have hnotes : ∀ severity, permits.notes ⟨severity,
      if error.isMissing then .missingField else .structuralMismatch, target, error.message⟩ := by
    intro severity
    split
    · exact hmisses.missing _ rfl (by simp)
    · exact hmisses.mismatch _ rfl (by simp)
  unfold Eval.noteUnresolved
  cases isOptional with
  | true => exact h.note ⟨rfl, fun h => (by cases h), .inl rfl⟩ (hnotes _)
  | false => exact h.note ⟨rfl, fun _ => .inr rfl, .inl rfl⟩ (hnotes _)

theorem place (result value : Value) (target : Path) (hwrite : permits.Allows .writeFailed) :
    P (place result value target) := by
  unfold Eval.place
  split
  · split
    · exact h.pure _
    · have hmessage : ∀ cause : String, ∃ more, (Event.notMerged cause).message = cause ++ more :=
        fun cause => ⟨"", String.append_empty.symm⟩
      refine h.bind (h.note ⟨rfl, fun _ => .inl (hmessage _), .inr ⟨rfl, rfl, rfl⟩⟩ ?_)
        fun _ => h.pure _
      exact hwrite _ rfl fun _ => rfl
  · split
    · exact h.pure _
    · refine h.bind (h.note ⟨rfl, fun _ => .inr rfl, .inl rfl⟩ ?_) fun _ => h.pure _
      exact hwrite _ rfl fun _ => rfl

theorem keep (rule : FieldRule) (value : Value)
    (hrecords : rule.isUniqueId = true → permits.records)
    (hremembers : rule.addToCache = true → permits.remembers) : P (Engine.keep rule value) := by
  -- what is left to do after the id is all that a rule without an id does
  have hcached : P (Engine.keep { rule with isUniqueId := false } value) := by
    unfold Engine.keep
    rw [if_neg (by simp)]
    split
    · split
      · exact h.remember (hremembers ‹_›) _ _
      · exact h.pure _
    · exact h.pure _
  unfold Engine.keep at hcached ⊢
  rw [if_neg (by simp)] at hcached
  by_cases hunique : rule.isUniqueId = true
  · rw [if_pos hunique]
    exact h.bind (h.recordId (hrecords hunique) _ _) fun _ => hcached
  · rw [if_neg hunique]
    exact hcached

variable (engine : Engine)

theorem start (rule : FieldRule) (current parent : Value) (hstarts : permits.Starts engine rule) :
    P (engine.start rule current parent) := by
  unfold Engine.start
  split
  · rename_i path hpath
    unfold Engine.lookUp
    split
    · exact h.pure _
    · exact h.read _ _
    · exact h.pure _
    · rename_i key rest hroute
      exact h.look (hstarts.looks path hpath _ _ hroute) key (fun v => h.read v rest) (h.pure _)
    · rename_i scope name rest hroute
      split
      · exact h.bind (h.report_quiet (by simp [Event.level])) fun _ => h.read _ _
      · rename_i e he
        exact h.throw (hstarts.ends path hpath scope name rest e hroute he)
  · exact h.pure _

theorem actIfAny {action : Option Action} (hacts : ∀ a ∈ action, permits.Acts engine a)
    (value scope : Value) (target : String) : P (engine.actIfAny action value scope target) := by
  cases action with
  | none => exact h.pure _
  | some action =>
    have hacts : permits.Acts engine action := hacts action rfl
    change P (engine.act action value scope target)
    unfold Engine.act
    refine h.bind (h.report (hacts.warns value scope)) fun _ => ?_
    split
    · exact h.pure _
    · rename_i e he
      by_cases hstrict : engine.config.failOnActionError = true
      · rw [if_pos hstrict]
        exact h.throw (hacts.strict hstrict value scope e he target)
      · rw [if_neg hstrict]
        have hnote := hacts.lenient (by simpa using hstrict) value scope e he target
        exact h.bind (h.note ⟨rfl, fun _ => .inr rfl, .inl rfl⟩ hnote) fun _ => h.pure _

theorem fieldValue (rule : FieldRule) (current parent : Value) (hmisses : permits.Misses)
    (hstarts : permits.Starts engine rule) (hacts : ∀ a ∈ rule.action, permits.Acts engine a)
    (hrecords : rule.isUniqueId = true → permits.records)
    (hremembers : rule.addToCache = true → permits.remembers) :
    P (engine.fieldValue rule current parent) := by
  unfold Engine.fieldValue
  refine h.bind (h.start engine rule current parent hstarts) fun found => ?_
  split
  · refine h.bind (h.actIfAny engine hacts _ _ _) fun v => ?_
    exact h.bind (h.keep rule v hrecords hremembers) fun _ => h.pure _
  · exact h.bind (h.noteUnresolved _ _ _ hmisses) fun _ => h.pure _

theorem loopValue {evaluate : Value → Eval Value} (source target : Path) {action : Option Action}
    (hacts : ∀ a ∈ action, permits.Acts engine a) (current : Value) (hmisses : permits.Misses)
    (hevaluate : ∀ item, P (evaluate item)) :
    P (engine.loopValue evaluate source target action current) := by
  unfold Engine.loopValue
  refine h.bind (h.read _ _) fun found => ?_
  split
  · refine h.bind (h.report_quiet (by simp [Event.level])) fun _ => ?_
    exact h.bind (h.mapM _ hevaluate) fun documents => h.actIfAny engine hacts _ _ _
  · refine h.bind (h.note ⟨rfl, fun h => (by cases h), .inl rfl⟩ ?_) fun _ => h.pure _
    exact hmisses.mismatch _ rfl (by simp)
  · refine h.bind (h.note ⟨rfl, fun _ => .inl ⟨", writing null", rfl⟩, .inl rfl⟩ ?_)
      fun _ => h.pure _
    exact hmisses.mismatch _ rfl (by simp)
  · exact h.bind (h.noteUnresolved _ _ _ hmisses) fun _ => h.pure _

mutual

theorem evaluateRule : ∀ (rule : Rule), permits.Admits engine [rule] →
    ∀ current parent result : Value, P (engine.evaluateRule rule current parent result)
  | .field rule, hadmits, current, parent, result => by
    have hfield : rule ∈ Rule.fieldsAll [.field rule] := by simp [Rule.fieldsAll, Rule.fields]
    have hacts : ∀ a ∈ rule.action, permits.Acts engine a :=
      fun a ha => hadmits.acts _ (List.mem_singleton.2 rfl) a (.field ha)
    rw [Engine.evaluateRule]
    refine h.bind (h.fieldValue engine rule current parent hadmits.misses
      (hadmits.starts rule hfield) hacts (hadmits.records rule hfield)
      (hadmits.remembers rule hfield)) fun v => ?_
    exact h.place _ _ _ (hadmits.allows _ (by simp))
  | .group rules, hadmits, current, parent, result => by
    rw [Engine.evaluateRule]
    exact h.bind (evaluateRules rules hadmits.group current parent .empty) fun _ => h.pure _
  | .loop source target rules action, hadmits, current, parent, result => by
    have hacts : ∀ a ∈ action, permits.Acts engine a := by
      rintro a rfl
      exact hadmits.acts _ (List.mem_singleton.2 rfl) a (.loop source target rules)
    rw [Engine.evaluateRule]
    refine h.bind (h.loopValue engine source target hacts current hadmits.misses fun item =>
      evaluateRules rules hadmits.body item current .empty) fun v => ?_
    exact h.bind (h.place _ _ _ (hadmits.allows _ (by simp))) fun _ => h.pure _

/-- A closed property holds of the evaluation of the rules that it admits. -/
theorem evaluateRules : ∀ (rules : List Rule), permits.Admits engine rules →
    ∀ current parent result : Value, P (engine.evaluateRules rules current parent result)
  | [], _, current, parent, result => by
    rw [Engine.evaluateRules]
    exact h.pure _
  | rule :: rest, hadmits, current, parent, result => by
    rw [Engine.evaluateRules]
    refine h.bind (evaluateRule rule hadmits.head current parent result) fun reached => ?_
    exact evaluateRules rest hadmits.tail current parent reached

end

theorem document {mapping : Mapping} (hadmits : permits.Admits engine mapping.rules)
    (source : Value) : P (engine.document mapping source) :=
  h.bind (h.report_quiet (by simp [Event.level])) fun _ =>
    h.evaluateRules engine mapping.rules hadmits source source .empty

end Closed

end Eval

end PayloadMapping
