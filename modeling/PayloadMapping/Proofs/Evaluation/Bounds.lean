import PayloadMapping.Proofs.Evaluation.Trace

set_option autoImplicit false

/-!
# How evaluations may end and what they may note

An evaluation ends early at a provider or at an action that fails, and no other step of it can
fail. So bounds on the errors and the diagnostics of an evaluation follow from bounds on those of
the lookups of its field rules and of the actions at its rules: `run_bounded`.
-/

namespace PayloadMapping

namespace Eval

/-- From the session on, the run ends and notes within what is allowed. -/
def Permits.Bounds (permits : Permits) {α : Type} (session : Session)
    (ran : Except EngineError α × Session) : Prop :=
  (∀ e, ran.1 = .error e → permits.ends e) ∧
    ∃ added, ran.2.context.diagnostics = session.context.diagnostics ++ added ∧
      ∀ d ∈ added, permits.notes d

def Bounded (permits : Permits) {α : Type} (step : Eval α) : Prop :=
  ∀ session, permits.Bounds session (step.run session)

namespace Permits.Bounds

variable {α β : Type} {permits : Permits} {session middle : Session}

theorem trans {a : α} {ran : Except EngineError β × Session}
    (h : permits.Bounds session (.ok a, middle)) (h' : permits.Bounds middle ran) :
    permits.Bounds session ran := by
  obtain ⟨-, added, hadded, hnotes⟩ := h
  obtain ⟨hends, more, hmore, hnotes'⟩ := h'
  refine ⟨hends, added ++ more, ?_, List.forall_mem_append.2 ⟨hnotes, hnotes'⟩⟩
  rw [hmore, hadded, List.append_assoc]

theorem of_change {change : Change} (h : permits.Lets change) :
    permits.Bounds session (.ok (), change.apply session) := by
  refine ⟨by simp, [change].filterMap Change.diagnostic?, session.after_diagnostics [change], ?_⟩
  cases change with
  | note event d => simpa [Change.diagnostic?] using h.2
  | report _ | recordId _ _ | remember _ _ => simp [Change.diagnostic?]

end Permits.Bounds

theorem Bounded.closed {permits : Permits} : Closed permits (Bounded permits) :=
  .of_runs (R := permits.Bounds) (fun _ _ => ⟨by simp, [], by simp⟩)
    (fun _ h => ⟨by rintro _ ⟨⟩; exact h, [], by simp⟩)
    (fun h => ⟨fun e he => h.1 e (by cases he; rfl), h.2⟩) .trans fun _ h _ => .of_change h

end Eval

namespace Engine

open Eval

/-- A run ends and notes within what its rules are admitted by. -/
theorem run_bounded {permits : Permits} {engine : Engine} {mapping : Mapping}
    (h : permits.Admits engine mapping.rules) (source : Value) :
    Bounded permits (engine.document mapping source) :=
  Bounded.closed.document engine h source

end Engine

end PayloadMapping
