import PayloadMapping.Proofs.Evaluation.Trace

set_option autoImplicit false

/-!
# Events and diagnostics side by side

What an evaluation reports and what it notes in the context go together: every diagnostic has an
event of its own, in the same order and as severe, and no other event is a warning
(`run_reports_diagnostics`). Only the two actions that warn on their own are left out.
-/

namespace PayloadMapping

/-- Each diagnostic has an event that reports it, in the same order, and no other event is a
warning. -/
inductive Accord : List Event → List Diagnostic → Prop
  | nil : Accord [] []
  | quiet {event : Event} {events : List Event} {diagnostics : List Diagnostic}
      (quiet : event.level ≠ .warn) (rest : Accord events diagnostics) :
      Accord (event :: events) diagnostics
  | reported {event : Event} {events : List Event} {d : Diagnostic}
      {diagnostics : List Diagnostic} (reports : event.Reports d)
      (rest : Accord events diagnostics) : Accord (event :: events) (d :: diagnostics)

namespace Accord

variable {events more : List Event} {diagnostics others : List Diagnostic}

theorem of_quiet (h : ∀ event ∈ events, event.level ≠ .warn) : Accord events [] := by
  induction events with
  | nil => exact .nil
  | cons event events ih =>
    obtain ⟨hfirst, hrest⟩ := List.forall_mem_cons.1 h
    exact .quiet hfirst (ih hrest)

theorem append (h : Accord events diagnostics) (h' : Accord more others) :
    Accord (events ++ more) (diagnostics ++ others) := by
  induction h with
  | nil => exact h'
  | quiet quiet _ ih => exact .quiet quiet ih
  | reported reports _ ih => exact .reported reports ih

theorem warnings (h : Accord events diagnostics) :
    List.Forall₂ Event.Reports (events.filter (·.level = .warn))
      (diagnostics.filter (·.severity = .warning)) := by
  induction h with
  | nil => exact .nil
  | quiet quiet _ ih => rwa [List.filter_cons_of_neg (by simpa using quiet)]
  | @reported event _ d _ reports _ ih =>
    have hlevel := reports.level
    cases hseverity : d.severity with
    | debug =>
      rw [hseverity] at hlevel
      rwa [List.filter_cons_of_neg (by simp [hlevel, Severity.level]),
        List.filter_cons_of_neg (by simp [hseverity])]
    | warning =>
      rw [hseverity] at hlevel
      rw [List.filter_cons_of_pos (by simp [hlevel, Severity.level]),
        List.filter_cons_of_pos (by simp [hseverity])]
      exact .cons reports ih

theorem exists_reports (h : Accord events diagnostics) :
    ∃ noted, noted.Sublist events ∧ List.Forall₂ Event.Reports noted diagnostics := by
  induction h with
  | nil => exact ⟨[], .slnil, .nil⟩
  | quiet _ _ ih =>
    obtain ⟨noted, hsublist, hreports⟩ := ih
    exact ⟨noted, hsublist.cons _, hreports⟩
  | reported reports _ ih =>
    obtain ⟨noted, hsublist, hreports⟩ := ih
    exact ⟨_ :: noted, hsublist.cons_cons _, .cons reports hreports⟩

end Accord

/-! ## Actions -/

namespace Action

/-- The action is none of the two that warn about a value that they pass over. -/
def IsQuiet (action : Action) : Prop := action ≠ .capitalise ∧ ∀ key, action ≠ .listToDict key

theorem quiet_of_mem_lookUpEvents {scope : Value} {paths : List Path} {event : Event}
    (h : event ∈ lookUpEvents scope paths) : event.level ≠ .warn := by
  induction paths with
  | nil => cases h
  | cons path rest ih =>
    unfold lookUpEvents at h
    split at h
    · cases h
    · rcases List.mem_cons.1 h with rfl | h
      · simp [Event.level]
      · exact ih h

theorem quiet_of_mem_sumEvents {key : String} {scope : Value} {total : Total}
    {paths : List Path} {event : Event} (h : event ∈ sumEvents key scope total paths) :
    event.level ≠ .warn := by
  induction paths generalizing total with
  | nil => cases h
  | cons path rest ih =>
    unfold sumEvents at h
    split at h
    · rcases List.mem_cons.1 h with rfl | h
      · simp [Event.level]
      · exact ih h
    · rcases List.mem_cons.1 h with rfl | h
      · simp [Event.level]
      · exact ih h
    · split at h
      · rcases List.mem_cons.1 h with rfl | h
        · simp [Event.level]
        · exact ih h
      · rw [List.mem_singleton.1 h]
        simp [Event.level]
    · rw [List.mem_singleton.1 h]
      simp [Event.level]

theorem memberEvent_quiet (scope : Value) (path : Path) :
    (memberEvent scope path).level ≠ .warn := by
  unfold memberEvent
  split <;> simp [Event.level]

mutual

theorem quiet_of_mem_events : ∀ {action : Action} {v scope : Value} {event : Event},
    (∀ part ∈ action.flatten, part.IsQuiet) → event ∈ events action v scope →
    event.level ≠ .warn
  | .affix _ part meaning _, v, scope, event, _, h => by
    rw [events] at h
    unfold addPartEvents at h
    split at h
    · exact quiet_of_mem_lookUpEvents h
    · cases h
  | .sum _ _, v, scope, event, _, h => by
    rw [events] at h
    exact quiet_of_mem_sumEvents h
  | .valueIn _ _, v, scope, event, _, h => by
    rw [events] at h
    obtain ⟨path, _, rfl⟩ := List.mem_map.1 h
    exact memberEvent_quiet scope path
  | .chain actions, v, scope, event, hquiet, h => by
    rw [events] at h
    rw [flatten] at hquiet
    exact quiet_of_mem_eventsAll (List.forall_mem_cons.1 hquiet).2 h
  | .capitalise, _, _, _, hquiet, _ => absurd rfl (hquiet .capitalise (List.mem_singleton.2 rfl)).1
  | .listToDict key, _, _, _, hquiet, _ =>
    absurd rfl ((hquiet (.listToDict key) (List.mem_singleton.2 rfl)).2 key)
  | .extractIndex _ _, _, _, _, _, h | .flat _ _ _, _, _, _, _, h | .cast _, _, _, _, _, h
  | .text _, _, _, _, _, h | .default _, _, _, _, _, h | .reserved _, _, _, _, _, h => by
    rw [events] at h
    cases h

theorem quiet_of_mem_eventsAll : ∀ {actions : List Action} {v scope : Value} {event : Event},
    (∀ part ∈ flattenAll actions, part.IsQuiet) → event ∈ eventsAll actions v scope →
    event.level ≠ .warn
  | [], _, _, _, _, h => by cases h
  | action :: rest, v, scope, event, hquiet, h => by
    obtain ⟨hfirst, hrest⟩ := List.forall_mem_append.1 hquiet
    rw [eventsAll] at h
    rcases List.mem_append.1 h with h | h
    · exact quiet_of_mem_events hfirst h
    · split at h
      · exact quiet_of_mem_eventsAll hrest h
      · cases h

end

end Action

/-! ## Steps -/

/-- From the first session to the second, events and diagnostics that go together were added. -/
def Session.Accords (session reached : Session) : Prop :=
  ∃ reported added, reached.events = session.events ++ reported ∧
    reached.context.diagnostics = session.context.diagnostics ++ added ∧ Accord reported added

namespace Session.Accords

variable {s t u : Session}

theorem refl (s : Session) : s.Accords s :=
  ⟨[], [], (List.append_nil _).symm, (List.append_nil _).symm, .nil⟩

theorem trans (h : s.Accords t) (h' : t.Accords u) : s.Accords u := by
  obtain ⟨reported, added, hevents, hdiagnostics, haccord⟩ := h
  obtain ⟨reported', added', hevents', hdiagnostics', haccord'⟩ := h'
  refine ⟨reported ++ reported', added ++ added', ?_, ?_, haccord.append haccord'⟩
  · rw [hevents', hevents, List.append_assoc]
  · rw [hdiagnostics', hdiagnostics, List.append_assoc]

theorem of_change {change : Change}
    (h : Eval.Permits.Lets { warns := fun _ => False } change) : s.Accords (change.apply s) := by
  cases change with
  | report events => exact ⟨events, [], rfl, (List.append_nil _).symm, .of_quiet h⟩
  | note event d => exact ⟨[event], [d], rfl, rfl, .reported h.1 .nil⟩
  | recordId target id =>
    by_cases hnew : s.context.isNewId id = true
    · refine ⟨[.idRecorded target id.compact], [], if_pos hnew, by simp [Change.apply],
        .of_quiet ?_⟩
      exact List.forall_mem_singleton.2 (by simp [Event.level])
    · exact ⟨[], [], by simp [Change.apply, hnew], by simp [Change.apply], .nil⟩
  | remember key value =>
    refine ⟨_, [], rfl, by simp [Change.apply], .of_quiet (List.forall_mem_singleton.2 ?_)⟩
    split <;> simp [Event.level]

end Session.Accords

namespace Eval

def Accords {α : Type} (step : Eval α) : Prop :=
  ∀ session : Session, session.Accords (step.run session).2

/-- Warnings come with notes only. -/
theorem Accords.closed : Closed { warns := fun _ => False } Accords :=
  .of_runs (R := fun session ran => session.Accords ran.2) (fun _ => .refl)
    (fun session _ => .refl session) id .trans fun _ h _ => .of_change h

end Eval

namespace Engine

open Eval

/-- Where no action of a mapping warns on its own, a run reports a warning for each warning that
it notes and no other, in the order of the notes, and every note of it at all has an event of its
own in that order. So it is also when the run ends early. -/
theorem run_reports_diagnostics (engine : Engine) {mapping : Mapping}
    (hquiet : ∀ part ∈ mapping.actions, part ≠ .capitalise ∧ ∀ key, part ≠ .listToDict key)
    (source : Value) (session : Session) :
    let reached := (engine.run mapping source session).2
    ∃ reported added,
      reached.events = session.events ++ reported ∧
      reached.context.diagnostics = session.context.diagnostics ++ added ∧
      List.Forall₂ Event.Reports (reported.filter (·.level = .warn))
        (added.filter (·.severity = .warning)) ∧
      ∃ noted, noted.Sublist reported ∧ List.Forall₂ Event.Reports noted added := by
  intro reached
  let permits : Permits := { warns := fun _ => False }
  have hacts : ∀ rule ∈ mapping.rules, ∀ action, rule.Attaches action →
      permits.Acts engine action := by
    intro rule hrule action hattached
    refine ⟨fun v scope event h => Action.quiet_of_mem_events (fun part hpart => ?_) h,
      fun _ _ _ _ _ _ => trivial, fun _ _ _ _ _ _ => trivial⟩
    exact hquiet part ((Rule.mem_actionsAll_iff part mapping.rules).2
      ⟨rule, hrule, action, hattached, hpart⟩)
  have hadmits : permits.Admits engine mapping.rules :=
    { allows := fun _ _ _ _ _ => trivial
      starts := fun _ _ => ⟨fun _ _ _ _ _ => trivial, fun _ _ _ _ _ _ _ _ => trivial⟩
      acts := hacts
      records := fun _ _ _ => trivial
      remembers := fun _ _ _ => trivial }
  obtain ⟨reported, added, hevents, hdiagnostics, haccord⟩ :=
    Accords.closed.document engine hadmits source session
  exact ⟨reported, added, hevents, hdiagnostics, haccord.warnings, haccord.exists_reports⟩

/-- A hotel whose rooms are a text: the run goes on to the value that cannot be merged, or ends
before it at the action that fails. -/
theorem run_reports_diagnostics_hotel :
    let stars : FieldRule :=
      { source := some (.parse "stars"), target := .parse "stars", isOptional := true }
    let first : FieldRule :=
      { source := some (.parse "pools"), target := .parse "pool"
        action := some (.chain [.reserved .divide]) }
    let name : FieldRule := { source := none, target := .parse "" }
    let mapping : Mapping := { rules :=
      [.field stars, .loop (.parse "rooms") (.parse "rooms") [] none, .field first, .field name] }
    let hotel : Value := .object [("pools", .array []), ("rooms", .string "twelve")]
    let left := fun strict : Bool =>
      ((⟨[], { failOnActionError := strict }⟩ : Engine).run mapping hotel {}).2
    let warnings := fun session : Session => session.events.filter (·.level = .warn)
    (∀ part ∈ mapping.actions, part ≠ .capitalise ∧ ∀ key, part ≠ .listToDict key) ∧
      (left true).context.diagnostics.map Diagnostic.severity = [.debug, .warning] ∧
      warnings (left false) =
        [.loopSourceUnsuited "rooms" "for_each source 'rooms' is string, expected array",
          .actionFailed "pool" "chain" "action 'divide' is not implemented",
          .notMerged "cannot merge null into the output"] ∧
      ∀ strict, List.Forall₂ Event.Reports (warnings (left strict))
        ((left strict).context.diagnostics.filter (·.severity = .warning)) := by
  intro stars first name mapping hotel left warnings
  have hactions : mapping.actions = [.chain [.reserved .divide], .reserved .divide] := rfl
  have hquiet : ∀ part ∈ mapping.actions, part ≠ .capitalise ∧ ∀ key, part ≠ .listToDict key := by
    rw [hactions]
    simp
  refine ⟨hquiet, by decide +kernel, by decide +kernel, fun strict => ?_⟩
  obtain ⟨reported, added, hevents, hdiagnostics, hwarnings, -⟩ :=
    run_reports_diagnostics ⟨[], { failOnActionError := strict }⟩ hquiet hotel {}
  have hstart : ({} : Session).context.diagnostics = [] := rfl
  rw [List.nil_append] at hevents
  rw [hstart, List.nil_append] at hdiagnostics
  simp only [warnings, left, hevents, hdiagnostics]
  exact hwarnings

end Engine

end PayloadMapping
