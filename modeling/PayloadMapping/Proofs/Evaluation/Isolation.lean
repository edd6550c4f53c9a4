import PayloadMapping.Engine.Operation
import PayloadMapping.Proofs.Evaluation.Trace

set_option autoImplicit false

/-!
# What one run tells the next

Runs on one context see nothing of each other but the cached values, and these only if some field
rule looks them up. Ids and diagnostics of earlier runs have no effect on the document, on the
cached values or on the diagnostics that a run adds.
-/

namespace PayloadMapping

namespace Eval

/-- The step ends in the same way and makes the same changes from all sessions. -/
def Blind {α : Type} (step : Eval α) : Prop :=
  ∃ outcome changes, ∀ cache, Traced step cache outcome changes

theorem Blind.bind {α β : Type} {step : Eval α} {next : α → Eval β} (h : Blind step)
    (hnext : ∀ a, Blind (next a)) : Blind (step >>= next) := by
  obtain ⟨outcome, changes, htrace⟩ := h
  cases outcome with
  | error e => exact ⟨.error e, changes, fun cache => (htrace cache).bind_error⟩
  | ok a =>
    obtain ⟨final, more, hmore⟩ := hnext a
    exact ⟨final, changes ++ more, fun cache => (htrace cache).bind_ok (hmore _)⟩

theorem Blind.closed : Closed { looks := False } Blind where
  pure a := ⟨_, [], fun _ => .pure a⟩
  throw _ := ⟨_, [], fun _ => .throw _⟩
  bind := Blind.bind
  report _ := ⟨_, _, fun _ => .report _⟩
  note _ _ := ⟨_, _, fun _ => .note _ _⟩
  look h := h.elim
  recordId _ target id := ⟨_, _, fun _ => .recordId target id⟩
  remember _ key value := ⟨_, _, fun _ => .remember key value⟩

end Eval

namespace Engine

open Eval

def LooksInCache (engine : Engine) (rule : FieldRule) : Prop :=
  ∃ path ∈ rule.source, ∃ key rest, engine.route path = .cache key rest

theorem document_blind (engine : Engine) (mapping : Mapping) (source : Value)
    (h : ∀ rule ∈ Rule.fieldsAll mapping.rules, ¬ engine.LooksInCache rule) :
    Blind (engine.document mapping source) := by
  have hfree := Permits.free False True True
  refine Blind.closed.document engine ⟨fun _ _ => hfree.allows _, fun rule hrule => ?_,
    fun _ _ _ _ => hfree.acts _, fun _ _ _ => trivial, fun _ _ _ => trivial⟩ source
  refine ⟨fun path hpath key rest hroute => ?_, fun _ _ _ _ _ _ _ _ => trivial⟩
  exact h rule hrule ⟨path, hpath, key, rest, hroute⟩

/-- From contexts with the same cached values a run gives the same document or error, leaves the
same cached values and adds the same diagnostics, whatever the ids and diagnostics are. If no
field rule looks in the cache, it gives the same and adds the same from all contexts. So from a
context that was reset it does what it does from a new one. -/
theorem run_sees_cache_only (engine : Engine) (mapping : Mapping) (source : Value) :
    let run := engine.run mapping source
    (∀ session session' : Session, session.context.cache = session'.context.cache →
      (run session).1 = (run session').1 ∧
      (run session).2.context.cache = (run session').2.context.cache ∧
      ∃ added,
        (run session).2.context.diagnostics = session.context.diagnostics ++ added ∧
        (run session').2.context.diagnostics = session'.context.diagnostics ++ added) ∧
    ((∀ rule ∈ Rule.fieldsAll mapping.rules, ¬ engine.LooksInCache rule) →
      ∀ session session' : Session, (run session).1 = (run session').1 ∧
      ∃ added,
        (run session).2.context.diagnostics = session.context.diagnostics ++ added ∧
        (run session').2.context.diagnostics = session'.context.diagnostics ++ added) ∧
    ∀ context : Context, run { context := context.reset } = run {} := by
  intro run
  refine ⟨fun session session' hcache => ?_, fun hblind session session' => ?_, fun _ => rfl⟩
  · obtain ⟨outcome, changes, htrace, _⟩ :=
      document_makes engine mapping source session.context.cache
    have hrun : run session = (outcome, session.after changes) := htrace session rfl
    have hrun' : run session' = (outcome, session'.after changes) := htrace session' hcache.symm
    rw [hrun, hrun']
    refine ⟨rfl, ?_, _, session.after_diagnostics changes, session'.after_diagnostics changes⟩
    rw [Session.after_cache, Session.after_cache, hcache]
  · obtain ⟨outcome, changes, htrace⟩ := document_blind engine mapping source hblind
    have hrun : run session = (outcome, session.after changes) := htrace _ session rfl
    have hrun' : run session' = (outcome, session'.after changes) := htrace _ session' rfl
    rw [hrun, hrun']
    exact ⟨rfl, _, session.after_diagnostics changes, session'.after_diagnostics changes⟩

/-- An id that was seen before, without cached values and in a context with one. -/
theorem run_sees_cache_only_seen_id :
    let rule : FieldRule :=
      { source := some (Path.parse "ref"), target := Path.parse "ref", isUniqueId := true }
    let mapping : Mapping := { rules := [.group [.field rule]] }
    let source : Value := .object [("ref", .string "B1")]
    let seen : Session := { context := Context.empty.recordId (.string "B1") }
    let kept : Session := { context := seen.context.remember "ref" .null }
    seen.context.cache = ({} : Session).context.cache ∧
      (({} : Engine).run mapping source seen).1 = (({} : Engine).run mapping source {}).1 ∧
      (∀ rule ∈ Rule.fieldsAll mapping.rules, ¬ ({} : Engine).LooksInCache rule) ∧
      (({} : Engine).run mapping source kept).1 = (({} : Engine).run mapping source {}).1 := by
  intro rule mapping source seen kept
  have hblind : ∀ rule ∈ Rule.fieldsAll mapping.rules, ¬ ({} : Engine).LooksInCache rule := by
    intro inner hinner
    obtain rfl : inner = rule := List.mem_singleton.1 hinner
    rintro ⟨path, hpath, key, rest, hroute⟩
    have hpayload : ({} : Engine).route (Path.parse "ref") = .payload ["ref"] := by decide
    obtain rfl : Path.parse "ref" = path := Option.some.inj hpath
    rw [hpayload] at hroute
    cases hroute
  have hcache : seen.context.cache = ({} : Session).context.cache := Context.recordId_cache _ _
  obtain ⟨hsame, hany, _⟩ := run_sees_cache_only {} mapping source
  exact ⟨hcache, (hsame seen {} hcache).1, hblind, (hany hblind kept {}).1⟩

end Engine

end PayloadMapping
