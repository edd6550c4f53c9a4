import PayloadMapping.Proofs.Evaluation.Bounds
import PayloadMapping.Proofs.Evaluation.Routing

set_option autoImplicit false

/-!
# Evaluations that tolerate failing actions

Where an action that fails only gives null, nothing but a lookup at a provider can end an
evaluation early: `lenient_run_ends`.
-/

namespace PayloadMapping

theorem Providers.find_error {providers : Providers} {scope name : String} {e : AttributeError}
    (h : providers.find scope name = .error e) :
    (e = .missingProvider scope ∧ providers.hasScope scope = false) ∨
      (e = .missingAttribute scope name ∧ providers.hasScope scope = true) := by
  unfold find at h
  unfold hasScope Fields.contains
  cases hscope : Fields.get? scope providers with
  | none =>
    rw [hscope] at h
    exact .inl ⟨(Except.error.inj h).symm, rfl⟩
  | some provider =>
    rw [hscope] at h
    dsimp only at h
    split at h
    · exact .inr ⟨(Except.error.inj h).symm, rfl⟩
    · cases h

namespace Engine

open Eval (Permits)

def AsksProviders (engine : Engine) (rules : List Rule) : Prop :=
  ∃ rule ∈ Rule.fieldsAll rules, ∃ path ∈ rule.source, ∃ head ∈ path.first?,
    engine.AsksProvider head

/-- The failure of a lookup at a provider: the scope without a provider is one of those that stand
for others, and the scope without the attribute has a provider. -/
def IsMissing (engine : Engine) : EngineError → Prop
  | .provider (.missingProvider scope) =>
    (scope = "config" ∨ scope = "self") ∧ engine.providers.hasScope scope = false
  | .provider (.missingAttribute scope _) => engine.providers.hasScope scope = true
  | .action _ _ => False

variable {engine : Engine}

theorem isMissing_of_find_error {path : Path} {scope name : String} {rest : List String}
    {e : AttributeError} (hroute : engine.route path = .provider scope name rest)
    (he : engine.providers.find scope name = .error e) : engine.IsMissing (.provider e) := by
  rcases Providers.find_error he with ⟨rfl, hnone⟩ | ⟨rfl, hsome⟩
  · refine ⟨?_, hnone⟩
    rcases (route_provider hroute).2 with hscope | hstandIn
    · rw [hnone] at hscope
      cases hscope
    · exact hstandIn
  · exact hsome

/-- Where failing actions are tolerated, an evaluation ends early only because of a lookup at a
provider, which some rule has to ask for. -/
theorem lenient_run_ends (engine : Engine) (mapping : Mapping) (source : Value) (session : Session)
    (hlenient : engine.config.failOnActionError = false) :
    let ended := (engine.run mapping source session).1
    (∀ e, ended = .error e → engine.AsksProviders mapping.rules ∧ engine.IsMissing e) ∧
      (¬ engine.AsksProviders mapping.rules → ∃ document, ended = .ok document) := by
  intro ended
  have hends : ∀ e, ended = .error e →
      engine.AsksProviders mapping.rules ∧ engine.IsMissing e := by
    let permits : Permits :=
      { ends := fun e => engine.AsksProviders mapping.rules ∧ engine.IsMissing e }
    have hstarts : ∀ rule ∈ Rule.fieldsAll mapping.rules, permits.Starts engine rule := by
      intro rule hrule
      refine ⟨fun _ _ _ _ _ => trivial, fun path hpath scope name rest e hroute he => ?_⟩
      exact ⟨⟨rule, hrule, path, hpath, (route_provider hroute).1⟩,
        isMissing_of_find_error hroute he⟩
    have hacts : ∀ action, permits.Acts engine action := by
      intro action
      refine ⟨fun _ _ _ _ _ => trivial, fun hstrict => ?_, fun _ _ _ _ _ _ => trivial⟩
      rw [hlenient] at hstrict
      cases hstrict
    have hadmits : permits.Admits engine mapping.rules :=
      ⟨fun _ _ _ _ _ => trivial, hstarts, fun _ _ action _ => hacts action,
        fun _ _ _ => trivial, fun _ _ _ => trivial⟩
    exact (run_bounded hadmits source session).1
  refine ⟨hends, fun hnone => ?_⟩
  cases houtcome : ended with
  | ok document => exact ⟨document, rfl⟩
  | error e => exact absurd (hends e houtcome).1 hnone

/-- An action that fails and a loop over no list are tolerated; a missing provider is not. -/
theorem lenient_run_ends_currency :
    let id : FieldRule :=
      { source := some (Path.parse "$$id"), target := Path.parse "id"
        action := some (.reserved .divide) }
    let tolerated : List Rule :=
      [.field id, .loop (Path.parse "$id") (Path.parse "id.parts") [.field id] none]
    let currency : Rule := .group [.field (.copy (Path.parse "$config.currency") (Path.parse "id"))]
    let payload : Value := .object [("$id", .string "B1")]
    let ended := fun rules : List Rule => (({} : Engine).run ⟨none, rules⟩ payload {}).1
    ({} : Engine).config.failOnActionError = false ∧
      (∃ document, ended tolerated = .ok document) ∧
      ({} : Engine).AsksProviders (tolerated ++ [currency]) ∧
      ∃ e, ended (tolerated ++ [currency]) = .error e ∧ ({} : Engine).IsMissing e := by
  intro id tolerated currency payload ended
  have hlenient : ({} : Engine).config.failOnActionError = false := rfl
  have hnone : ¬ ({} : Engine).AsksProviders tolerated := by
    rintro ⟨rule, hrule, path, hpath, head, hhead, hnotEscaped, -⟩
    obtain rfl : rule = id := by simpa [Rule.fieldsAll, Rule.fields, tolerated] using hrule
    obtain rfl : Path.parse "$$id" = path := Option.some.inj hpath
    obtain rfl : "$$id" = head := Option.some.inj hhead
    exact hnotEscaped (by decide)
  have hfails : (ended (tolerated ++ [currency])).toOption = none := by decide +kernel
  obtain ⟨e, he⟩ : ∃ e, ended (tolerated ++ [currency]) = .error e := by
    cases hended : ended (tolerated ++ [currency]) with
    | error e => exact ⟨e, rfl⟩
    | ok document =>
      rw [hended] at hfails
      cases hfails
  obtain ⟨-, hsucceeds⟩ := lenient_run_ends {} ⟨none, tolerated⟩ payload {} hlenient
  obtain ⟨hends, -⟩ := lenient_run_ends {} ⟨none, tolerated ++ [currency]⟩ payload {} hlenient
  obtain ⟨hasks, hmissing⟩ := hends e he
  exact ⟨hlenient, hsucceeds hnone, hasks, e, he, hmissing⟩

end Engine

end PayloadMapping
