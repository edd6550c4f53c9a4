import PayloadMapping.Proofs.Evaluation.Ids
import PayloadMapping.Proofs.Evaluation.Loop
import PayloadMapping.Proofs.Path.Put

set_option autoImplicit false

/-!
# Field rules in any order

Field rules that keep nothing in the cache find their values independently of each other. If
in addition no target leads through another one, then neither do their writes interfere, and
`field_rules_in_any_order` says that every order of the rules gives the same document, with the
value of each rule at its target.
-/

namespace PayloadMapping

namespace Engine

open Eval

/-- Field rules that do not interfere: each has a target, none keeps a value in the cache, and
no target leads to or through another. -/
structure Separate (rules : List FieldRule) : Prop where
  nonempty : ∀ rule ∈ rules, rule.target.isEmpty = false
  uncached : ∀ rule ∈ rules, rule.addToCache = false
  diverge : rules.Pairwise fun a b => Path.Diverge a.target.segments b.target.segments

theorem Separate.perm {rules order : List FieldRule} (h : Separate rules)
    (hperm : order.Perm rules) : Separate order := by
  refine ⟨fun rule hrule => h.nonempty rule (hperm.mem_iff.1 hrule),
    fun rule hrule => h.uncached rule (hperm.mem_iff.1 hrule), ?_⟩
  exact (hperm.pairwise_iff fun hab => Path.Diverge.symm hab).2 h.diverge

def FieldTraces (engine : Engine) (source : Value) (cache : Fields Value) :=
  Traces (fun rule => engine.fieldValue rule source source) (fun rule => rule.addToCache = false)
    (· ≠ .writeFailed) cache

theorem nonempty_fieldTraces (engine : Engine) (source : Value) (cache : Fields Value) :
    Nonempty (FieldTraces engine source cache) :=
  Traces.nonempty_of_makes fun rule huncached =>
    fieldValue_makes engine rule source source (by simp [huncached])

namespace FieldTraces

variable {engine : Engine} {source : Value} {cache : Fields Value}
  (traces : FieldTraces engine source cache)

def writes (rules : List FieldRule) : List (List String × Value) :=
  rules.map fun rule => (rule.target.segments, traces.result rule)

theorem independent_writes {rules : List FieldRule} (h : Separate rules) :
    Path.Independent .empty (traces.writes rules) := by
  refine ⟨List.pairwise_map.2 h.diverge, fun write _ => ?_⟩
  exact Path.accepts_empty write.1

end FieldTraces

theorem place_of_put {result v written : Value} {target : Path} (htarget : target.isEmpty = false)
    (h : Path.put v target.segments result = .ok written) :
    place result v target = pure written := by
  unfold place
  rw [if_neg (by simp [htarget]), Path.write, h]

section

variable {engine : Engine} {source : Value} {cache : Fields Value}
  (traces : FieldTraces engine source cache)

theorem evaluateRules_ok {rules : List FieldRule} {result document : Value}
    (hnonempty : ∀ rule ∈ rules, rule.target.isEmpty = false)
    (huncached : ∀ rule ∈ rules, rule.addToCache = false)
    (hok : ∀ rule ∈ rules, ∃ v, traces.outcome rule = .ok v)
    (hwrites : Path.putAll (traces.writes rules) result = .ok document) :
    Traced (engine.evaluateRules (rules.map .field) source source result) cache (.ok document)
      (rules.flatMap traces.changes) := by
  induction rules generalizing result with
  | nil =>
    cases hwrites
    rw [List.map_nil, evaluateRules]
    exact .pure _
  | cons rule rest ih =>
    have huncachedRule := huncached rule List.mem_cons_self
    have hvalue := traces.traced_result huncachedRule (hok rule List.mem_cons_self)
    obtain ⟨written, hput, hwritten⟩ := Path.putAll_cons_ok_iff.1 hwrites
    have hrest := ih (fun r hr => hnonempty r (List.mem_cons_of_mem _ hr))
      (fun r hr => huncached r (List.mem_cons_of_mem _ hr))
      (fun r hr => hok r (List.mem_cons_of_mem _ hr)) hwritten
    rw [List.map_cons, evaluateRules, evaluateRule, List.flatMap_cons]
    have hfield : Traced (do
        let v ← engine.fieldValue rule source source
        place result v rule.target) cache (.ok written) (traces.changes rule ++ []) := by
      refine hvalue.bind_ok ?_
      rw [place_of_put (hnonempty rule List.mem_cons_self) hput]
      exact .pure _
    rw [List.append_nil] at hfield
    refine hfield.bind_ok ?_
    rw [traces.kept huncachedRule]
    exact hrest

theorem evaluateRules_error {rules : List FieldRule} (result : Value)
    (huncached : ∀ rule ∈ rules, rule.addToCache = false)
    (herror : ∃ rule ∈ rules, ∃ e, traces.outcome rule = .error e) :
    ∃ e changes, Traced (engine.evaluateRules (rules.map .field) source source result) cache
      (.error e) changes := by
  induction rules generalizing result with
  | nil =>
    obtain ⟨_, hrule, _⟩ := herror
    cases hrule
  | cons rule rest ih =>
    have huncachedRule := huncached rule List.mem_cons_self
    have hvalue := traces.traced rule huncachedRule
    rw [List.map_cons, evaluateRules, evaluateRule]
    cases houtcome : traces.outcome rule with
    | error e =>
      rw [houtcome] at hvalue
      exact ⟨e, _, hvalue.bind_error.bind_error⟩
    | ok v =>
      rw [houtcome] at hvalue
      have hrest : ∃ r ∈ rest, ∃ e, traces.outcome r = .error e := by
        obtain ⟨r, hr, e, he⟩ := herror
        rcases List.mem_cons.1 hr with rfl | hr
        · rw [houtcome] at he
          cases he
        · exact ⟨r, hr, e, he⟩
      have hmakes : Makes (fun _ => True) False (place result v rule.target) :=
        place_makes _ _ _ trivial
      obtain ⟨placed, noted, hplaced, hquiet⟩ := hmakes cache
      have hplace : Traced (place result v rule.target)
          ((traces.changes rule).foldl Change.cacheAfter cache) placed noted := by
        rwa [traces.kept huncachedRule]
      cases placed with
      | error e => exact ⟨e, _, (hvalue.bind_ok hplace).bind_error⟩
      | ok reached =>
        obtain ⟨e, more, hmore⟩ :=
          ih reached (fun r hr => huncached r (List.mem_cons_of_mem _ hr)) hrest
        have hkept : (traces.changes rule ++ noted).foldl Change.cacheAfter cache = cache := by
          rw [List.foldl_append, traces.kept huncachedRule, Change.foldl_cacheAfter _ hquiet]
        refine ⟨e, _, (hvalue.bind_ok hplace).bind_ok (hkept.symm ▸ hmore)⟩

/-- Separate rules that all have values are evaluated to the document that they write; other
ones end with an error. -/
theorem run_fields {rules : List FieldRule} (h : Separate rules) (name : Option String)
    (session : Session) (hcache : session.context.cache = cache) :
    ((∀ rule ∈ rules, ∃ v, traces.outcome rule = .ok v) ∧
      ∃ document, Path.putAll (traces.writes rules) .empty = .ok document ∧
        engine.run ⟨name, rules.map .field⟩ source session =
          (.ok document, session.after (.report
            [.started (Mapping.label ⟨name, rules.map .field⟩) (rules.map Rule.field).length] ::
              rules.flatMap traces.changes))) ∨
    (¬ (∀ rule ∈ rules, ∃ v, traces.outcome rule = .ok v) ∧
      ∃ e, (engine.run ⟨name, rules.map .field⟩ source session).1 = .error e) := by
  have hreported (outcome : Except EngineError Value) (changes : List Change)
      (htrace : Traced (engine.evaluateRules (rules.map .field) source source .empty) cache outcome
        changes) : engine.run ⟨name, rules.map .field⟩ source session =
          (outcome, session.after (.report
            [.started (Mapping.label ⟨name, rules.map .field⟩) (rules.map Rule.field).length] ::
              changes)) := htrace.report_bind _ session hcache
  by_cases hok : ∀ rule ∈ rules, ∃ v, traces.outcome rule = .ok v
  · obtain ⟨document, hdocument⟩ := Path.exists_putAll (traces.independent_writes h)
    refine .inl ⟨hok, document, hdocument, hreported _ _ ?_⟩
    exact evaluateRules_ok traces h.nonempty h.uncached hok hdocument
  · refine .inr ⟨hok, ?_⟩
    have herror : ∃ rule ∈ rules, ∃ e, traces.outcome rule = .error e := by
      by_contra hnone
      refine hok fun rule hrule => ?_
      cases houtcome : traces.outcome rule with
      | error e => exact absurd ⟨rule, hrule, e, houtcome⟩ hnone
      | ok v => exact ⟨v, rfl⟩
    obtain ⟨e, changes, htrace⟩ := evaluateRules_error traces .empty h.uncached herror
    exact ⟨e, by rw [hreported _ _ htrace]⟩

variable {rules order : List FieldRule} (h : Separate rules) (hperm : order.Perm rules)
  (name : Option String) (session : Session) (hcache : session.context.cache = cache)
include h hperm hcache

theorem run_order_succeeds_iff :
    (∃ d, (engine.run ⟨name, order.map .field⟩ source session).1 = .ok d) ↔
      ∀ rule ∈ rules, ∃ v, traces.outcome rule = .ok v := by
  have hall : (∀ rule ∈ order, ∃ v, traces.outcome rule = .ok v) ↔
      ∀ rule ∈ rules, ∃ v, traces.outcome rule = .ok v := by simp only [hperm.mem_iff]
  rw [← hall]
  rcases run_fields traces (h.perm hperm) name session hcache with
    ⟨hok, d, _, hrun⟩ | ⟨hno, e, hrun⟩
  · exact ⟨fun _ => hok, fun _ => ⟨d, by rw [hrun]⟩⟩
  · refine ⟨fun hd => ?_, fun hok => absurd hok hno⟩
    obtain ⟨d, hd⟩ := hd
    rw [hrun] at hd
    cases hd

theorem run_order (hok : ∀ rule ∈ rules, ∃ v, traces.outcome rule = .ok v) :
    ∃ d, Path.putAll (traces.writes rules) .empty = .ok d ∧
      (engine.run ⟨name, order.map .field⟩ source session).1 = .ok d ∧
      (engine.run ⟨name, order.map .field⟩ source session).2.context.diagnostics =
        session.context.diagnostics ++
          (order.flatMap traces.changes).filterMap Change.diagnostic? ∧
      (engine.run ⟨name, order.map .field⟩ source session).2.context.uniqueIds =
        session.context.uniqueIds ++ Context.unseen session.context.seenTexts
          ((order.flatMap traces.changes).filterMap Change.id?) := by
  have hsame : Path.putAll (traces.writes order) .empty =
      Path.putAll (traces.writes rules) .empty :=
    Path.putAll_perm (hperm.map _) (traces.independent_writes (h.perm hperm))
  rcases run_fields traces (h.perm hperm) name session hcache with
    ⟨_, d, hdocument, hrun⟩ | ⟨hno, _⟩
  · rw [hrun]
    refine ⟨d, hsame ▸ hdocument, rfl, ?_, ?_⟩
    · rw [Session.after_diagnostics]
      rfl
    · rw [Session.after_uniqueIds]
      rfl
  · exact absurd (fun rule hrule => hok rule (hperm.mem_iff.1 hrule)) hno

end

/-- Separate field rules may be evaluated in any order: all orders succeed or none does, and all
give one document, in which the value of each rule is found at its target and nothing else but
what leads to a target or lies below one. No write fails, and the orders differ in the order of
the diagnostics and ids alone. -/
theorem field_rules_in_any_order (engine : Engine) (name : Option String) (source : Value)
    (session : Session) (rules : List FieldRule) (h : Separate rules) :
    let run := fun order : List FieldRule => engine.run ⟨name, order.map .field⟩ source session
    (∀ order order', order.Perm rules → order'.Perm rules →
      ((∃ d, (run order).1 = .ok d) ↔ ∃ d, (run order').1 = .ok d)) ∧
    ∀ order document, order.Perm rules → (run order).1 = .ok document →
      (∃ added, (run order).2.context.diagnostics = session.context.diagnostics ++ added ∧
        ∀ d ∈ added, d.kind ≠ .writeFailed) ∧
      (∀ rule ∈ rules, ∃ v, ((engine.fieldValue rule source source).run session).1 = .ok v ∧
        rule.target.read document = .ok v) ∧
      (∀ segments found, Path.readSegments document segments = .ok found →
        (∃ rule ∈ rules, segments <+: rule.target.segments ∨ rule.target.segments <+: segments) ∨
          rules = [] ∧ segments = []) ∧
      ∀ order', order'.Perm rules → (run order').1 = .ok document ∧
        ((run order').2.context.diagnostics).Perm (run order).2.context.diagnostics ∧
        ((run order').2.context.uniqueIds).Perm (run order).2.context.uniqueIds := by
  intro run
  -- each rule has one trace, in whatever order the rules stand
  obtain ⟨traces⟩ := nonempty_fieldTraces engine source session.context.cache
  refine ⟨fun order order' hperm hperm' => ?_, fun order document hperm hdocument => ?_⟩
  · exact (run_order_succeeds_iff traces h hperm name session rfl).trans
      (run_order_succeeds_iff traces h hperm' name session rfl).symm
  · have hok := (run_order_succeeds_iff traces h hperm name session rfl).1 ⟨document, hdocument⟩
    obtain ⟨d, hwritten, hd, hdiagnostics, hids⟩ := run_order traces h hperm name session rfl hok
    obtain rfl : d = document := Except.ok.inj (hd.symm.trans hdocument)
    refine ⟨⟨_, hdiagnostics, ?_⟩, ?_, ?_, ?_⟩
    · have hquiet : ∀ change ∈ order.flatMap traces.changes,
          change.Within (· ≠ .writeFailed) False := by
        intro change hchange
        obtain ⟨rule, hrule, hmem⟩ := List.mem_flatMap.1 hchange
        exact traces.within rule (h.uncached rule (hperm.mem_iff.1 hrule)) change hmem
      exact Change.kinds_of_within hquiet
    · intro rule hrule
      refine ⟨traces.result rule, ?_, ?_⟩
      · rw [traces.traced rule (h.uncached rule hrule) session rfl]
        exact traces.outcome_eq_result (hok rule hrule)
      · exact Path.readSegments_ok_iff.2 (Path.walk_putAll (traces.independent_writes h) hwritten
          (List.mem_map.2 ⟨rule, hrule, rfl⟩))
    · intro segments found hfound
      rcases Path.walk_of_walk_putAll hwritten (Path.readSegments_ok_iff.1 hfound) with
        ⟨write, hwrite, hcomparable⟩ | ⟨v, hv⟩
      · obtain ⟨rule, hrule, rfl⟩ := List.mem_map.1 hwrite
        exact .inl ⟨rule, hrule, hcomparable⟩
      · obtain rfl := Path.walk_empty hv
        cases rules with
        | nil => exact .inr ⟨rfl, rfl⟩
        | cons rule rest => exact .inl ⟨rule, List.mem_cons_self, .inl List.nil_prefix⟩
    · intro order' hperm'
      obtain ⟨d', hwritten', hd', hdiagnostics', hids'⟩ :=
        run_order traces h hperm' name session rfl hok
      obtain rfl : d = d' := Except.ok.inj (hwritten.symm.trans hwritten')
      have hchanges : (order'.flatMap traces.changes).Perm (order.flatMap traces.changes) :=
        (hperm'.trans hperm.symm).flatMap_right _
      refine ⟨hd', ?_, ?_⟩
      · rw [hdiagnostics, hdiagnostics']
        exact (hchanges.filterMap _).append_left _
      · rw [hids, hids']
        exact (Context.unseen_perm _ (hchanges.filterMap _)).append_left _

/-- Two rules that write below one key. -/
theorem field_rules_in_any_order_below_one_key :
    let first : FieldRule := .copy (Path.parse "b") (Path.parse "out.x")
    let second : FieldRule := { source := some (Path.parse "a"), target := Path.parse "out.y" }
    let source : Value := .object [("a", .bool true), ("b", .null)]
    Separate [first, second] ∧
      (((⟨[], {}⟩ : Engine).run ⟨none, [second, first].map .field⟩ source {}).1 =
        ((⟨[], {}⟩ : Engine).run ⟨none, [first, second].map .field⟩ source {}).1) := by
  intro first second source
  have hseparate : Separate [first, second] := by
    refine ⟨by decide, by decide, ?_⟩
    simp only [List.pairwise_cons, List.mem_singleton, forall_eq, List.not_mem_nil, false_imp_iff,
      implies_true, List.Pairwise.nil, and_true]
    exact ⟨by decide, by decide⟩
  have hdocument : ((⟨[], {}⟩ : Engine).run ⟨none, [first, second].map .field⟩ source {}).1 =
      .ok (.object [("out", .object [("x", .null), ("y", .bool true)])]) := by decide +kernel
  obtain ⟨_, hall⟩ := field_rules_in_any_order ⟨[], {}⟩ none source {} [first, second] hseparate
  obtain ⟨_, _, _, hother⟩ := hall [first, second] _ (List.Perm.refl _) hdocument
  refine ⟨hseparate, ?_⟩
  rw [(hother [second, first] (List.Perm.swap _ _ _)).1, hdocument]

/-- Without rules the empty path reads the empty document, and there is no target that it could
lead to. -/
theorem field_rules_none :
    Separate [] ∧
      ((⟨[], {}⟩ : Engine).run ⟨none, ([] : List FieldRule).map .field⟩ .empty {}).1 =
        .ok .empty ∧
      Path.readSegments .empty [] = .ok .empty ∧
      ¬ ∃ rule ∈ ([] : List FieldRule), ([] : List String) <+: rule.target.segments ∨
        rule.target.segments <+: [] := by
  refine ⟨⟨by simp, by simp, List.Pairwise.nil⟩, rfl, rfl, ?_⟩
  rintro ⟨rule, hrule, _⟩
  cases hrule

end Engine

end PayloadMapping
