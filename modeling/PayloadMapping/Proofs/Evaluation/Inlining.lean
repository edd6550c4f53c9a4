import PayloadMapping.Proofs.Evaluation.Schema

set_option autoImplicit false

/-!
# Groups in place of their rules

A group fills an object of its own, which is merged into the object around it; its rules alone
write into that object directly. Where the group's object has no key of the other, its rules find
nothing there to step into, and both ways give the same: `groups_inlined`.
-/

namespace PayloadMapping

namespace Eval

/-- Filling an object that other fields were merged below does the same to the session, and gives
the same object with these fields below, unless it has one of their keys. An object in key order
stays in key order and keeps its keys. -/
def FillsApart (fill : Value → Eval Value) : Prop :=
  ∀ (below before : Fields Value) (session reached : Session) (after : Value),
    before.InOrder → (fill (.object before)).run session = (.ok after, reached) →
    ∃ fields : Fields Value, after = .object fields ∧ fields.InOrder ∧
      (∀ key ∈ before.keys, key ∈ fields.keys) ∧
      ((∀ key ∈ below.keys, key ∉ fields.keys) →
        (fill (.object (below.merge before))).run session =
          (.ok (.object (below.merge fields)), reached))

namespace FillsApart

variable {α : Type} {fill next : Value → Eval Value}

theorem pure : FillsApart fun result => Pure.pure result := by
  intro below before session reached after horder hrun
  cases hrun
  exact ⟨before, rfl, horder, fun _ hkey => hkey, fun _ => rfl⟩

theorem after_step {step : Eval α} {fill : α → Value → Eval Value}
    (h : ∀ a, FillsApart (fill a)) : FillsApart fun result => step >>= fun a => fill a result := by
  intro below before session reached after horder hrun
  simp only [run_bind] at hrun ⊢
  generalize step.run session = ran at hrun ⊢
  obtain ⟨_ | a, between⟩ := ran
  · cases hrun
  · exact h a below before between reached after horder hrun

/-- The keys that the first step gives are keys in the end, so both steps fill apart. -/
theorem andThen (h : FillsApart fill) (hnext : FillsApart next) :
    FillsApart fun result => fill result >>= next := by
  intro below before session reached after horder hrun
  rw [run_bind] at hrun
  cases hfirst : (fill (.object before)).run session with
  | mk outcome between =>
    rw [hfirst] at hrun
    cases outcome with
    | error e => cases hrun
    | ok middle =>
      obtain ⟨fields, rfl, hfields, hkept, hsame⟩ :=
        h below before session between middle horder hfirst
      obtain ⟨final, rfl, hfinal, hkept', hsame'⟩ :=
        hnext below fields between reached after hfields hrun
      refine ⟨final, rfl, hfinal, fun key hkey => hkept' key (hkept key hkey), ?_⟩
      intro hapart
      have hmiddle := hsame fun key hkey hmem => hapart key hkey (hkept' key hmem)
      rw [run_bind, hmiddle]
      exact hsame' hapart

theorem merge (produced : Value) : FillsApart fun result => return result.merge produced := by
  intro below before session reached after horder hrun
  cases hrun
  cases produced with
  | object updates =>
    refine ⟨before.merge updates, rfl, horder.merge updates, ?_, fun _ => ?_⟩
    · exact fun key hkey => (Fields.mem_keys_merge _ _ _).2 (.inl hkey)
    · change (Except.ok (Value.object ((below.merge before).merge updates)), session) = _
      rw [Fields.merge_merge horder]
  | null | bool _ | number _ | string _ | array _ =>
    exact ⟨before, rfl, horder, fun _ hkey => hkey, fun _ => rfl⟩

theorem place (value : Value) (target : Path) :
    FillsApart fun result => place result value target := by
  intro below before session reached after horder hrun
  obtain ⟨fields, rfl, hkept, hwritten, -⟩ :=
    Engine.place_fills before value target session after (congrArg Prod.fst hrun)
  unfold Eval.place at hrun ⊢
  by_cases hempty : target.isEmpty = true
  · simp only [if_pos hempty] at hrun ⊢
    cases value with
    | object updates => exact merge (.object updates) below before session reached _ horder hrun
    | null | bool _ | number _ | string _ | array _ =>
      exact after_step (fun _ => pure) below before session reached _ horder hrun
  · simp only [if_neg hempty] at hrun ⊢
    cases hsegments : target.segments with
    | nil => simp [Path.isEmpty, hsegments] at hempty
    | cons key rest =>
      -- what is at the key decides, and it is the same with and without the fields below
      have hslot : (∀ k ∈ below.keys, k ∉ Fields.keys fields) →
          Fields.get? key (below.merge before) = Fields.get? key before := by
        intro hapart
        have hkey : key ∈ Fields.keys fields := hwritten key (by simp [Path.first?, hsegments])
        exact Fields.get?_merge_of_not_mem (fun hmem => hapart key hmem hkey) horder.nodup
      unfold Path.write at hrun ⊢
      rw [hsegments, Path.put_cons_object] at hrun
      rw [hsegments, Path.put_cons_object]
      cases hinner : Path.put value rest (Path.entered (Fields.get? key before)) with
      | error e =>
        rw [hinner] at hrun
        cases hrun
        refine ⟨before, rfl, horder, hkept, fun hapart => ?_⟩
        rw [hslot hapart, hinner]
        rfl
      | ok inner =>
        rw [hinner] at hrun
        cases hrun
        refine ⟨_, rfl, horder.insert key inner, hkept, fun hapart => ?_⟩
        rw [hslot hapart, hinner, Fields.merge_insert horder.nodup]
        rfl

end FillsApart

end Eval

namespace Engine

open Eval

mutual

theorem evaluateRule_fillsApart (engine : Engine) : ∀ (rule : Rule) (current parent : Value),
    FillsApart (engine.evaluateRule rule current parent)
  | .field rule, current, parent => by
    simp only [evaluateRule]
    exact .after_step fun v => .place v rule.target
  | .group rules, current, parent => by
    simp only [evaluateRule]
    exact .after_step fun produced => .merge produced
  | .loop source target rules action, current, parent => by
    simp only [evaluateRule]
    exact .after_step fun v => .after_step fun produced => .merge produced

theorem evaluateRules_fillsApart (engine : Engine) :
    ∀ (rules : List Rule) (current parent : Value),
    FillsApart (engine.evaluateRules rules current parent)
  | [], current, parent => by
    simp only [evaluateRules]
    exact .pure
  | rule :: rest, current, parent => by
    simp only [evaluateRules]
    exact (evaluateRule_fillsApart engine rule current parent).andThen
      (evaluateRules_fillsApart engine rest current parent)

end

theorem evaluateRules_append (engine : Engine) (before after : List Rule)
    (current parent result : Value) :
    engine.evaluateRules (before ++ after) current parent result =
      engine.evaluateRules before current parent result >>=
        engine.evaluateRules after current parent := by
  induction before generalizing result with
  | nil => simp [evaluateRules]
  | cons rule rest ih =>
    simp only [List.cons_append, evaluateRules, ih, bind_assoc]

theorem evaluateRule_group_empty (engine : Engine) (body : List Rule) (current parent : Value) :
    engine.evaluateRule (.group body) current parent .empty =
      engine.evaluateRules body current parent .empty := by
  have hfills := evaluateRules_fillsApart engine body current parent
  refine funext fun session => ?_
  change (engine.evaluateRule (.group body) current parent .empty).run session =
    (engine.evaluateRules body current parent .empty).run session
  rw [evaluateRule, run_bind]
  cases hrun : (engine.evaluateRules body current parent .empty).run session with
  | mk outcome reached =>
    cases outcome with
    | error e => rfl
    | ok after =>
      obtain ⟨fields, rfl, horder, -, -⟩ := hfills [] [] session reached after .nil hrun
      change (Except.ok (Value.object (Fields.sorted fields)), reached) = _
      rw [Fields.sorted_of_pairwise horder]

/-- A group may be replaced by its rules where its object has no key of the object that the rules
before it filled: the evaluation ends in the same way and leaves the same session. So the first
group of a list may always be, and a group in a group of its own is the group. -/
theorem evaluate_group_inlined (engine : Engine) (current parent : Value) :
    (∀ (before body after : List Rule) (session reached : Session) (result produced : Fields Value),
      (engine.evaluateRules before current parent .empty).run session =
        (.ok (.object result), reached) →
      ((engine.evaluateRules body current parent .empty).run reached).1 =
        .ok (.object produced) →
      (∀ key ∈ Fields.keys result, key ∉ Fields.keys produced) →
      (engine.evaluateRules (before ++ [.group body] ++ after) current parent .empty).run session =
        (engine.evaluateRules (before ++ body ++ after) current parent .empty).run session) ∧
    (∀ body after : List Rule,
      engine.evaluateRules (.group body :: after) current parent .empty =
        engine.evaluateRules (body ++ after) current parent .empty) ∧
    (∀ (body : List Rule) (result : Value),
      engine.evaluateRule (.group [.group body]) current parent result =
        engine.evaluateRule (.group body) current parent result) := by
  refine ⟨?_, ?_, ?_⟩
  · intro before body after session reached result produced hbefore hbody hapart
    have hfills := evaluateRules_fillsApart engine body current parent
    cases hrun : (engine.evaluateRules body current parent .empty).run reached with
    | mk outcome final =>
      obtain rfl : outcome = .ok (.object produced) := by rwa [hrun] at hbody
      obtain ⟨fields, hfields, -, -, hsame⟩ := hfills result [] reached final _ .nil hrun
      cases hfields
      have hgroup : (engine.evaluateRule (.group body) current parent (.object result)).run
          reached = (.ok (.object (Fields.merge result produced)), final) := by
        rw [evaluateRule, run_bind, hrun]
        rfl
      have hinlined : (engine.evaluateRules body current parent (.object result)).run reached =
          (.ok (.object (Fields.merge result produced)), final) := hsame hapart
      rw [List.append_assoc, List.append_assoc, evaluateRules_append, evaluateRules_append,
        run_bind, run_bind, hbefore, List.singleton_append]
      dsimp only
      rw [evaluateRules_append, evaluateRules, run_bind, run_bind, hgroup, hinlined]
  · intro body after
    rw [evaluateRules_append, evaluateRules, evaluateRule_group_empty]
  · intro body result
    have hinner : engine.evaluateRules [.group body] current parent .empty =
        engine.evaluateRules body current parent .empty := by
      simp only [evaluateRules, evaluateRule_group_empty, bind_pure]
    rw [evaluateRule, evaluateRule, hinner]

/-- A price and a group with the carrier, and a group that writes below the first segment of the
price. Only the first of them finds nothing of the price in its way. -/
theorem evaluate_group_inlined_carrier :
    let price : Rule := .field (.copy (Path.parse "price") (Path.parse "offer.price"))
    let carrier : Rule := .field (.copy (Path.parse "carrier") (Path.parse "leg.carrier"))
    let currency : Rule := .field (.copy (Path.parse "currency") (Path.parse "offer.currency"))
    let payload : Value := .object
      [("carrier", .string "LH"), ("currency", .string "EUR"), ("price", .string "7")]
    let evaluated := fun rules : List Rule =>
      (({} : Engine).evaluateRules rules payload payload .empty).run {}
    evaluated ([price] ++ [.group [carrier]] ++ [currency]) =
        evaluated ([price] ++ [carrier] ++ [currency]) ∧
      (evaluated ([price] ++ [.group [currency]])).1.toOption ≠
        (evaluated ([price] ++ [currency])).1.toOption := by
  intro price carrier currency payload evaluated
  obtain ⟨hinlined, -, -⟩ := evaluate_group_inlined {} payload payload
  refine ⟨?_, by decide +kernel⟩
  exact hinlined [price] [carrier] [currency] {} _
    [("offer", .object [("price", .string "7")])] [("leg", .object [("carrier", .string "LH")])]
    rfl (by decide +kernel) (by decide)

end Engine

end PayloadMapping
