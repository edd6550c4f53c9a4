import PayloadMapping.Proofs.Evaluation.Loop
import PayloadMapping.Proofs.Path.Put

set_option autoImplicit false

/-!
# The keys of documents

A document is an object, and which keys it has is said by the mapping: the first segments of
the targets of its rules, those in groups included. A lookup, an action or a write that fails
leaves them there with null or with what was there before. `document_schema` says so of whole
documents and of the documents that loops collect.
-/

namespace PayloadMapping

namespace Rule

mutual

/-- The targets at which a rule writes into the object that it fills. A group fills the object
around it; the rules of a loop fill objects of their own. -/
def targets : Rule → List Path
  | .field rule => [rule.target]
  | .group rules => targetsAll rules
  | .loop _ target _ _ => [target]

def targetsAll : List Rule → List Path
  | [] => []
  | rule :: rest => targets rule ++ targetsAll rest

end

end Rule

/-- From fields `before` on, writes at the targets led to the object `after`: no key is lost,
the first segment of each target is a key, and without an empty target there is no other new
key. -/
def Fills (targets : List Path) (before : Fields Value) (after : Value) : Prop :=
  ∃ fields, after = .object fields ∧
    (∀ key ∈ Fields.keys before, key ∈ Fields.keys fields) ∧
    (∀ key ∈ targets.filterMap Path.first?, key ∈ Fields.keys fields) ∧
    ((∀ target ∈ targets, target.isEmpty = false) → ∀ key ∈ Fields.keys fields,
      key ∈ Fields.keys before ∨ key ∈ targets.filterMap Path.first?)

namespace Fills

variable {targets more : List Path} {before : Fields Value} {after : Value}

theorem refl (before : Fields Value) : Fills [] before (.object before) :=
  ⟨before, rfl, fun _ h => h, by simp, fun _ _ h => .inl h⟩

theorem append {fields : Fields Value} (h : Fills targets before (.object fields))
    (hmore : Fills more fields after) : Fills (targets ++ more) before after := by
  obtain ⟨_, hfields, hkept, hwritten, honly⟩ := h
  cases hfields
  obtain ⟨final, rfl, hkept', hwritten', honly'⟩ := hmore
  refine ⟨final, rfl, fun key hkey => hkept' key (hkept key hkey), ?_, ?_⟩
  · intro key hkey
    rw [List.filterMap_append] at hkey
    rcases List.mem_append.1 hkey with hkey | hkey
    · exact hkept' key (hwritten key hkey)
    · exact hwritten' key hkey
  · intro hnonempty key hkey
    rw [List.filterMap_append, List.mem_append]
    rcases honly' (fun t ht => hnonempty t (List.mem_append_right _ ht)) key hkey with h | h
    · rcases honly (fun t ht => hnonempty t (List.mem_append_left _ ht)) key h with h | h
      · exact .inl h
      · exact .inr (.inl h)
    · exact .inr (.inr h)

theorem merge (before : Fields Value) (h : Fills targets [] after) :
    Fills targets before (Value.merge (.object before) after) := by
  obtain ⟨fields, rfl, _, hwritten, honly⟩ := h
  refine ⟨Fields.merge before fields, rfl, ?_, ?_, ?_⟩
  · exact fun key hkey => (Fields.mem_keys_merge _ _ _).2 (.inl hkey)
  · exact fun key hkey => (Fields.mem_keys_merge _ _ _).2 (.inr (hwritten key hkey))
  · intro hnonempty key hkey
    rcases (Fields.mem_keys_merge _ _ _).1 hkey with h | h
    · exact .inl h
    · exact (honly hnonempty key h).elim (fun hnone => by cases hnone) .inr

theorem insert (before : Fields Value) (value : Value) {target : Path} {key : String}
    {rest : List String} (htarget : target.segments = key :: rest) :
    Fills [target] before (.object (Fields.insert key value before)) := by
  have hfirst : [target].filterMap Path.first? = [key] := by
    simp [Path.first?, htarget]
  refine ⟨_, rfl, fun other h => (Fields.mem_keys_insert _ _ _ _).2 (.inr h), ?_, ?_⟩
  · rw [hfirst]
    intro other hother
    exact (Fields.mem_keys_insert _ _ _ _).2 (.inl (List.mem_singleton.1 hother))
  · intro _ other hother
    rw [hfirst, List.mem_singleton]
    exact ((Fields.mem_keys_insert _ _ _ _).1 hother).symm

theorem of_put_error {value : Value} {target : Path} {e : String × Kind}
    (htarget : target.isEmpty = false)
    (h : Path.put value target.segments (.object before) = .error e) :
    Fills [target] before (.object before) := by
  cases hsegments : target.segments with
  | nil => simp [Path.isEmpty, hsegments] at htarget
  | cons key rest =>
    rw [hsegments, Path.put_cons_object] at h
    have hkey : key ∈ Fields.keys before := by
      rw [← Fields.contains_iff_mem_keys, Fields.contains]
      cases hslot : Fields.get? key before with
      | some v => rfl
      | none =>
        obtain ⟨inner, hinner⟩ := Path.put_empty value rest
        rw [hslot, Path.entered, hinner] at h
        cases h
    refine ⟨before, rfl, fun _ hother => hother, ?_, fun _ _ hother => .inl hother⟩
    intro other hother
    have hother : other = key := by simpa [Path.first?, hsegments] using hother
    exact hother ▸ hkey

end Fills

namespace Eval

variable {α β : Type}

def Yields (step : Eval α) (p : α → Prop) : Prop :=
  ∀ (session : Session) (a : α), (step.run session).1 = .ok a → p a

namespace Yields

variable {step : Eval α} {next : α → Eval β} {p : α → Prop} {q : β → Prop}

theorem pure {a : α} (h : p a) : Yields (Pure.pure a) p := by
  intro session b hb
  cases hb
  exact h

theorem bind (h : Yields step p) (hnext : ∀ a, p a → Yields (next a) q) :
    Yields (step >>= next) q := by
  intro session b hb
  rw [run_bind] at hb
  cases hrun : step.run session with
  | mk outcome reached =>
    rw [hrun] at hb
    cases outcome with
    | error e => cases hb
    | ok a =>
      have ha : p a := h session a (by rw [hrun])
      exact hnext a ha reached b hb

theorem any (step : Eval α) : Yields step fun _ => True := fun _ _ _ => trivial

theorem mapM {step : α → Eval β} (items : List α) (h : ∀ item, Yields (step item) q) :
    Yields (items.mapM step) fun results => ∀ b ∈ results, q b := by
  induction items with
  | nil => exact pure (by simp)
  | cons item rest ih =>
    rw [List.mapM_cons]
    refine (h item).bind fun b hb => ih.bind fun bs hbs => pure ?_
    exact List.forall_mem_cons.2 ⟨hb, hbs⟩

end Yields

end Eval

namespace Engine

open Eval

theorem place_fills (before : Fields Value) (value : Value) (target : Path) :
    Yields (place (.object before) value target) (Fills [target] before) := by
  unfold place
  by_cases hempty : target.isEmpty = true
  · -- nothing is asked for, and any key may come with an object that is merged
    have hnone : target.first? = none := by
      simpa [Path.isEmpty, Path.first?] using hempty
    rw [if_pos hempty]
    split
    · rename_i updates
      refine .pure ⟨Fields.merge before updates, rfl, ?_, by simp [hnone], ?_⟩
      · exact fun key hkey => (Fields.mem_keys_merge _ _ _).2 (.inl hkey)
      · intro hnonempty
        simp [hempty] at hnonempty
    · refine (Yields.any _).bind fun _ _ => .pure ?_
      exact ⟨before, rfl, fun _ h => h, by simp [hnone], fun _ _ h => .inl h⟩
  · rw [if_neg hempty]
    have hempty : target.isEmpty = false := by simpa using hempty
    unfold Path.write
    cases hput : Path.put value target.segments (.object before) with
    | error e =>
      exact (Yields.any _).bind fun _ _ => .pure (Fills.of_put_error hempty hput)
    | ok written =>
      cases hsegments : target.segments with
      | nil => simp [Path.isEmpty, hsegments] at hempty
      | cons key rest =>
        rw [hsegments] at hput
        obtain ⟨fields, inner, hfields, _, rfl⟩ := Path.put_cons_ok_iff.1 hput
        cases hfields
        exact .pure (Fills.insert before inner hsegments)

mutual

theorem evaluateRule_fills (engine : Engine) : ∀ (rule : Rule) (current parent : Value)
    (before : Fields Value),
    Yields (engine.evaluateRule rule current parent (.object before)) (Fills rule.targets before)
  | .field rule, current, parent, before => by
    rw [evaluateRule]
    exact (Yields.any _).bind fun v _ => place_fills before v rule.target
  | .group rules, current, parent, before => by
    rw [evaluateRule]
    refine (evaluateRules_fills engine rules current parent []).bind fun produced hproduced => ?_
    exact .pure (hproduced.merge before)
  | .loop source target rules action, current, parent, before => by
    rw [evaluateRule]
    refine (Yields.any _).bind fun v _ => ?_
    refine (place_fills [] v target).bind fun produced hproduced => ?_
    exact .pure (hproduced.merge before)

theorem evaluateRules_fills (engine : Engine) : ∀ (rules : List Rule) (current parent : Value)
    (before : Fields Value),
    Yields (engine.evaluateRules rules current parent (.object before))
      (Fills (Rule.targetsAll rules) before)
  | [], current, parent, before => by
    rw [evaluateRules]
    exact .pure (.refl before)
  | rule :: rest, current, parent, before => by
    rw [evaluateRules]
    refine (evaluateRule_fills engine rule current parent before).bind fun reached hreached => ?_
    -- the rest starts from an object again
    obtain ⟨fields, rfl, _⟩ := id hreached
    intro session after hafter
    have hrest := evaluateRules_fills engine rest current parent fields session after hafter
    exact hreached.append hrest

end

theorem collect_fills (engine : Engine) (source target : Path) (body : List Rule)
    (current : Value) :
    Yields (engine.collect source target body current) fun collected =>
      ∀ documents, collected = .array documents →
        ∀ d ∈ documents, Fills (Rule.targetsAll body) [] d := by
  unfold collect loopValue
  refine (Yields.any _).bind fun found _ => ?_
  split
  · rename_i items
    refine (Yields.any _).bind fun _ _ => ?_
    refine (Yields.mapM items fun item =>
      evaluateRules_fills engine body item current []).bind fun documents hdocuments => .pure ?_
    rintro _ ⟨⟩
    exact hdocuments
  all_goals exact (Yields.any _).bind fun _ _ => .pure (by simp)

end Engine

/-- A document as the rules alone say it is: an object that has the first segments of their
targets as keys, and no others unless some target is empty. -/
def Rule.DescribeKeys (rules : List Rule) (document : Value) : Prop :=
  ∃ fields, document = .object fields ∧
    (∀ key ∈ (targetsAll rules).filterMap Path.first?, key ∈ Fields.keys fields) ∧
    ((∀ target ∈ targetsAll rules, target.isEmpty = false) →
      ∀ key, key ∈ Fields.keys fields ↔ key ∈ (targetsAll rules).filterMap Path.first?)

theorem Fills.describeKeys {rules : List Rule} {document : Value}
    (h : Fills (Rule.targetsAll rules) [] document) : Rule.DescribeKeys rules document := by
  obtain ⟨fields, rfl, _, hwritten, honly⟩ := h
  refine ⟨fields, rfl, hwritten, fun hnonempty key => ⟨fun hkey => ?_, hwritten key⟩⟩
  exact (honly hnonempty key hkey).elim (fun hnone => by cases hnone) id

namespace Engine

open Eval

/-- The rules describe the keys of every document, and those inside a loop without action the
keys of the documents that it collects, whatever the payload. In between, every rule makes an
object from an object and keeps its keys, what a loop merges is an object, and no write of one
segment fails. -/
theorem document_schema (engine : Engine) :
    (∀ mapping source session document, (engine.run mapping source session).1 = .ok document →
      Rule.DescribeKeys mapping.rules document) ∧
    (∀ source target body current session documents,
      ((engine.collect source target body current).run session).1 = .ok (.array documents) →
      ∀ d ∈ documents, Rule.DescribeKeys body d) ∧
    (∀ rule current parent fields session result,
      ((engine.evaluateRule rule current parent (.object fields)).run session).1 = .ok result →
      ∃ updated, result = .object updated ∧
        ∀ key ∈ Fields.keys fields, key ∈ Fields.keys updated) ∧
    (∀ rules current parent session produced,
      ((engine.evaluateRules rules current parent .empty).run session).1 = .ok produced →
      Rule.DescribeKeys rules produced) ∧
    (∀ value target session produced,
      ((place .empty value target).run session).1 = .ok produced →
      ∃ fields, produced = .object fields) ∧
    (∀ (target : Path) fields value, target.length = 1 →
      ∃ written, target.write (.object fields) value = .ok written) := by
  have hrules : ∀ rules current parent session produced,
      ((engine.evaluateRules rules current parent .empty).run session).1 = .ok produced →
      Rule.DescribeKeys rules produced := fun rules current parent session produced h =>
    (evaluateRules_fills engine rules current parent [] session produced h).describeKeys
  refine ⟨?_, ?_, ?_, hrules, ?_, ?_⟩
  · intro mapping source session document h
    have hdocument : Yields (engine.document mapping source)
        (Fills (Rule.targetsAll mapping.rules) []) :=
      (Yields.any _).bind fun _ _ => evaluateRules_fills engine mapping.rules source source []
    exact (hdocument session document h).describeKeys
  · intro source target body current session documents h d hd
    exact (collect_fills engine source target body current session _ h documents rfl d
      hd).describeKeys
  · intro rule current parent fields session result h
    obtain ⟨updated, rfl, hkept, _⟩ :=
      evaluateRule_fills engine rule current parent fields session result h
    exact ⟨updated, rfl, hkept⟩
  · intro value target session produced h
    obtain ⟨fields, rfl, _⟩ := place_fills [] value target session produced h
    exact ⟨fields, rfl⟩
  · intro target fields value hlength
    obtain ⟨key, hkey⟩ := List.length_eq_one_iff.1 hlength
    have hput : Path.put value target.segments (.object fields) =
        .ok (.object (Fields.insert key value fields)) := by
      rw [hkey]
      exact Path.put_cons_ok_iff.2 ⟨fields, value, rfl, rfl, rfl⟩
    exact ⟨_, by rw [Path.write, hput]⟩

end Engine

end PayloadMapping
