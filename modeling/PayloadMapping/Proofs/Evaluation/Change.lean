import Mathlib.Data.List.Basic
import Mathlib.Tactic.Tauto
import PayloadMapping.Engine.Evaluate

set_option autoImplicit false

/-!
# Changes of a session

Whatever an evaluation does to its session is a list of changes made one after another. Each
kind of change reaches one part of the context: notes the diagnostics, ids the ids and values
to remember the cache. What a list of changes does to a part therefore depends on that part
and on the changes of its kind alone.
-/

namespace PayloadMapping

namespace Context

/-- The ids of a list that count for a context in which `seen` are the texts of ids seen so
far: those that are not null and whose text is new, each once. -/
def unseen (seen : List String) : List Value → List Value
  | [] => []
  | id :: rest =>
    if id ≠ .null ∧ id.compact ∉ seen then id :: unseen (id.compact :: seen) rest
    else unseen seen rest

theorem unseen_cons_of_new {seen : List String} {id : Value} {rest : List Value}
    (hnull : id ≠ .null) (hnew : id.compact ∉ seen) :
    unseen seen (id :: rest) = id :: unseen (id.compact :: seen) rest := by
  rw [unseen, if_pos ⟨hnull, hnew⟩]

theorem unseen_cons_of_not_new {seen : List String} {id : Value} {rest : List Value}
    (h : ¬ (id ≠ .null ∧ id.compact ∉ seen)) : unseen seen (id :: rest) = unseen seen rest := by
  rw [unseen, if_neg h]

theorem unseen_append (seen : List String) (xs ys : List Value) :
    unseen seen (xs ++ ys) =
      unseen seen xs ++ unseen (((unseen seen xs).map Value.compact).reverse ++ seen) ys := by
  induction xs generalizing seen with
  | nil => rfl
  | cons x xs ih =>
    by_cases h : x ≠ .null ∧ x.compact ∉ seen
    · rw [List.cons_append, unseen_cons_of_new h.1 h.2, unseen_cons_of_new h.1 h.2, ih]
      simp
    · rw [List.cons_append, unseen_cons_of_not_new h, unseen_cons_of_not_new h, ih]

/-- Ids that were dropped because of texts in `seen'` would be dropped anyway. -/
theorem unseen_unseen {seen seen' : List String} (h : seen' ⊆ seen) (xs : List Value) :
    unseen seen (unseen seen' xs) = unseen seen xs := by
  induction xs generalizing seen seen' with
  | nil => rfl
  | cons x xs ih =>
    by_cases hinner : x ≠ .null ∧ x.compact ∉ seen'
    · rw [unseen_cons_of_new hinner.1 hinner.2]
      by_cases houter : x.compact ∉ seen
      · rw [unseen_cons_of_new hinner.1 houter, unseen_cons_of_new hinner.1 houter]
        rw [ih (List.cons_subset_cons _ h)]
      · rw [unseen_cons_of_not_new (by tauto), unseen_cons_of_not_new (by tauto)]
        exact ih (List.cons_subset.2 ⟨by simpa using houter, h⟩)
    · have houter : ¬ (x ≠ .null ∧ x.compact ∉ seen) := fun hx =>
        hinner ⟨hx.1, fun hmem => hx.2 (h hmem)⟩
      rw [unseen_cons_of_not_new hinner, unseen_cons_of_not_new houter, ih h]

theorem unseen_flatMap_unseen {α : Type} (seen : List String) (ids : α → List Value)
    (items : List α) :
    unseen seen (items.flatMap fun item => unseen [] (ids item)) =
      unseen seen (items.flatMap ids) := by
  induction items generalizing seen with
  | nil => rfl
  | cons item items ih =>
    rw [List.flatMap_cons, List.flatMap_cons, unseen_append, unseen_append, ih]
    rw [unseen_unseen (List.nil_subset seen)]

theorem isNewId_iff (context : Context) (id : Value) :
    context.isNewId id = true ↔ id ≠ .null ∧ id.compact ∉ context.seenTexts := by
  simp [isNewId]

theorem recordId_of_new {context : Context} {id : Value} (h : context.isNewId id = true) :
    context.recordId id = { context with
      uniqueIds := context.uniqueIds ++ [id]
      seenTexts := id.compact :: context.seenTexts } := by
  simp [recordId, h]

theorem recordId_of_not_new {context : Context} {id : Value}
    (h : ¬ context.isNewId id = true) : context.recordId id = context := by
  simp [recordId, h]

@[simp] theorem recordId_cache (context : Context) (id : Value) :
    (context.recordId id).cache = context.cache := by
  unfold recordId
  split <;> rfl

@[simp] theorem recordId_diagnostics (context : Context) (id : Value) :
    (context.recordId id).diagnostics = context.diagnostics := by
  unfold recordId
  split <;> rfl

@[simp] theorem remember_uniqueIds (context : Context) (key : String) (value : Value) :
    (context.remember key value).uniqueIds = context.uniqueIds := by
  unfold remember
  split <;> rfl

@[simp] theorem remember_seenTexts (context : Context) (key : String) (value : Value) :
    (context.remember key value).seenTexts = context.seenTexts := by
  unfold remember
  split <;> rfl

@[simp] theorem remember_diagnostics (context : Context) (key : String) (value : Value) :
    (context.remember key value).diagnostics = context.diagnostics := by
  unfold remember
  split <;> rfl

def rememberIn (cache : Fields Value) (key : String) (value : Value) : Fields Value :=
  if Fields.contains key cache then cache else Fields.insert key value cache

theorem remember_cache (context : Context) (key : String) (value : Value) :
    (context.remember key value).cache = rememberIn context.cache key value := by
  unfold remember rememberIn
  split <;> rfl

theorem get?_rememberIn_eq (cache : Fields Value) (key other : String) (value : Value) :
    Fields.get? other (rememberIn cache key value) =
      (Fields.get? other cache).or (if key = other then some value else none) := by
  unfold rememberIn
  split
  · rename_i hkept
    by_cases hkey : key = other
    · subst hkey
      obtain ⟨found, hfound⟩ := Option.isSome_iff_exists.1 hkept
      rw [hfound, Option.some_or]
    · rw [if_neg hkey, Option.or_none]
  · rename_i hfree
    have hfree : Fields.get? key cache = none := by simpa [Fields.contains] using hfree
    by_cases hkey : key = other
    · subst hkey
      rw [Fields.get?_insert_self, hfree, if_pos rfl, Option.none_or]
    · rw [Fields.get?_insert_of_ne (Ne.symm hkey), if_neg hkey, Option.or_none]

theorem get?_rememberIn {cache : Fields Value} {key other : String} {value found : Value}
    (h : Fields.get? other cache = some found) :
    Fields.get? other (rememberIn cache key value) = some found := by
  rw [get?_rememberIn_eq, h, Option.some_or]

end Context

/-- One thing that an evaluation does to its session. -/
inductive Change where
  | report (events : List Event)
  | note (event : Event) (diagnostic : Diagnostic)
  | recordId (target : String) (id : Value)
  | remember (key : String) (value : Value)

namespace Change

def diagnostic? : Change → Option Diagnostic
  | .note _ diagnostic => some diagnostic
  | _ => none

def id? : Change → Option Value
  | .recordId _ id => some id
  | _ => none

def remembered? (key : String) : Change → Option Value
  | .remember other value => if other = key then some value else none
  | _ => none

def apply (session : Session) : Change → Session
  | .report events => { session with events := session.events ++ events }
  | .note event diagnostic =>
    { context := session.context.addDiagnostic diagnostic
      events := session.events ++ [event] }
  | .recordId target id =>
    { context := session.context.recordId id
      events :=
        if session.context.isNewId id then session.events ++ [.idRecorded target id.compact]
        else session.events }
  | .remember key value =>
    { context := session.context.remember key value
      events :=
        session.events ++
          [if Fields.contains key session.context.cache then .cacheKept key else .cached key] }

def cacheAfter (cache : Fields Value) : Change → Fields Value
  | .remember key value => Context.rememberIn cache key value
  | _ => cache

end Change

def Session.after (session : Session) (changes : List Change) : Session :=
  changes.foldl Change.apply session

namespace Session

@[simp] theorem after_nil (session : Session) : session.after [] = session := rfl

@[simp] theorem after_cons (session : Session) (change : Change) (changes : List Change) :
    session.after (change :: changes) = (change.apply session).after changes := rfl

theorem after_append (session : Session) (first second : List Change) :
    session.after (first ++ second) = (session.after first).after second :=
  List.foldl_append

theorem after_cache (session : Session) (changes : List Change) :
    (session.after changes).context.cache =
      changes.foldl Change.cacheAfter session.context.cache := by
  induction changes generalizing session with
  | nil => rfl
  | cons change changes ih =>
    rw [after_cons, ih]
    cases change with
    | report events => rfl
    | note event diagnostic => rfl
    | recordId target id => simp [Change.apply, Change.cacheAfter]
    | remember key value => simp [Change.apply, Change.cacheAfter, Context.remember_cache]

theorem after_diagnostics (session : Session) (changes : List Change) :
    (session.after changes).context.diagnostics =
      session.context.diagnostics ++ changes.filterMap Change.diagnostic? := by
  induction changes generalizing session with
  | nil => simp
  | cons change changes ih =>
    rw [after_cons, ih]
    cases change with
    | report events => rfl
    | note event diagnostic => simp [Change.apply, Change.diagnostic?, Context.addDiagnostic]
    | recordId target id => simp [Change.apply, List.filterMap_cons, Change.diagnostic?]
    | remember key value => simp [Change.apply, List.filterMap_cons, Change.diagnostic?]

theorem after_uniqueIds (session : Session) (changes : List Change) :
    (session.after changes).context.uniqueIds =
      session.context.uniqueIds ++
        Context.unseen session.context.seenTexts (changes.filterMap Change.id?) := by
  induction changes generalizing session with
  | nil => simp [Context.unseen]
  | cons change changes ih =>
    rw [after_cons, ih]
    cases change with
    | report events => rfl
    | note event diagnostic => rfl
    | remember key value => simp [Change.apply, List.filterMap_cons, Change.id?]
    | recordId target id =>
      by_cases hnew : session.context.isNewId id = true
      · have hcounts := (Context.isNewId_iff _ _).1 hnew
        simp [Change.apply, Change.id?, Context.unseen, Context.recordId_of_new hnew, hcounts]
      · have hcounts := mt (Context.isNewId_iff _ _).2 hnew
        simp only [Change.apply, List.filterMap_cons, Change.id?, Context.unseen,
          Context.recordId_of_not_new hnew, if_neg hcounts]

theorem diagnostics_prefix_after (session : Session) (changes : List Change) :
    session.context.diagnostics <+: (session.after changes).context.diagnostics := by
  rw [after_diagnostics]
  exact List.prefix_append _ _

theorem uniqueIds_prefix_after (session : Session) (changes : List Change) :
    session.context.uniqueIds <+: (session.after changes).context.uniqueIds := by
  rw [after_uniqueIds]
  exact List.prefix_append _ _

/-- A key holds what it held before, or else the first value kept under it. -/
theorem get?_cache_after_eq (session : Session) (changes : List Change) (key : String) :
    Fields.get? key (session.after changes).context.cache =
      (Fields.get? key session.context.cache).or
        (changes.findSome? (Change.remembered? key)) := by
  rw [after_cache]
  generalize session.context.cache = cache
  induction changes generalizing cache with
  | nil => simp
  | cons change changes ih =>
    rw [List.foldl_cons, ih]
    cases change with
    | remember other found =>
      rw [Change.cacheAfter, Context.get?_rememberIn_eq, List.findSome?_cons, Option.or_assoc,
        Change.remembered?]
      by_cases hkey : other = key
      · rw [if_pos hkey, Option.some_or]
      · rw [if_neg hkey, Option.none_or]
    | report _ | note _ _ | recordId _ _ => rfl

theorem get?_cache_after {session : Session} {key : String} {value : Value}
    (changes : List Change) (h : Fields.get? key session.context.cache = some value) :
    Fields.get? key (session.after changes).context.cache = some value := by
  rw [get?_cache_after_eq, h, Option.some_or]

end Session

end PayloadMapping
