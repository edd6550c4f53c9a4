set_option autoImplicit false

/-!
# Fields

The fields of an object, the entries of the cache and the attributes of a provider are lists of
keys with what they hold, in the order of the keys' code points. `insert` keeps a key's place
when the key is there and otherwise puts it before the first greater key, so lists built from
the empty one are in key order and hold every key once. The laws of `get?` and `insert` hold of
all lists.
-/

namespace PayloadMapping

abbrev Fields (α : Type) := List (String × α)

namespace Fields

variable {α : Type}

def get? (key : String) : Fields α → Option α
  | [] => none
  | (k, v) :: rest => if k = key then some v else get? key rest

def contains (key : String) (fields : Fields α) : Bool := (get? key fields).isSome

def keys (fields : Fields α) : List String := fields.map Prod.fst

def replace (key : String) (value : α) : Fields α → Fields α
  | [] => []
  | (k, v) :: rest => if k = key then (k, value) :: rest else (k, v) :: replace key value rest

/-- Put a key before the first greater one. -/
def place (key : String) (value : α) : Fields α → Fields α
  | [] => [(key, value)]
  | (k, v) :: rest =>
    if key < k then (key, value) :: (k, v) :: rest else (k, v) :: place key value rest

def insert (key : String) (value : α) (fields : Fields α) : Fields α :=
  if contains key fields then replace key value fields else place key value fields

def merge (fields updates : Fields α) : Fields α :=
  updates.foldl (fun acc field => insert field.1 field.2 acc) fields

/-- The list in key order; of a key that occurs twice the last value counts. -/
def sorted (fields : Fields α) : Fields α := merge [] fields

theorem get?_replace_self (key : String) (value : α) (fields : Fields α)
    (h : contains key fields = true) : get? key (replace key value fields) = some value := by
  induction fields with
  | nil => simp [contains, get?] at h
  | cons field rest ih =>
    obtain ⟨k, v⟩ := field
    by_cases hk : k = key
    · simp [replace, get?, hk]
    · have hr : contains key rest = true := by simpa [contains, get?, hk] using h
      simp [replace, get?, hk, ih hr]

theorem get?_replace_of_ne {key other : String} (hne : other ≠ key) (value : α)
    (fields : Fields α) : get? other (replace key value fields) = get? other fields := by
  induction fields with
  | nil => rfl
  | cons field rest ih =>
    obtain ⟨k, v⟩ := field
    by_cases hk : k = key
    · subst hk
      simp [replace, get?, Ne.symm hne]
    · simp [replace, get?, hk, ih]

theorem get?_place_self (key : String) (value : α) (fields : Fields α)
    (h : contains key fields = false) : get? key (place key value fields) = some value := by
  induction fields with
  | nil => simp [place, get?]
  | cons field rest ih =>
    obtain ⟨k, v⟩ := field
    have hk : k ≠ key := by
      intro hk
      simp [contains, get?, hk] at h
    have hr : contains key rest = false := by simpa [contains, get?, hk] using h
    by_cases hlt : key < k
    · simp [place, get?, hlt]
    · simp [place, get?, hlt, hk, ih hr]

theorem get?_place_of_ne {key other : String} (hne : other ≠ key) (value : α)
    (fields : Fields α) : get? other (place key value fields) = get? other fields := by
  induction fields with
  | nil => simp [place, get?, Ne.symm hne]
  | cons field rest ih =>
    obtain ⟨k, v⟩ := field
    by_cases hlt : key < k
    · simp [place, get?, hlt, Ne.symm hne]
    · simp [place, get?, hlt, ih]

@[simp] theorem get?_insert_self (key : String) (value : α) (fields : Fields α) :
    get? key (insert key value fields) = some value := by
  unfold insert
  split
  · exact get?_replace_self key value fields ‹_›
  · exact get?_place_self key value fields (by simpa using ‹¬contains key fields = true›)

theorem get?_insert_of_ne {key other : String} (hne : other ≠ key) (value : α)
    (fields : Fields α) : get? other (insert key value fields) = get? other fields := by
  unfold insert
  split
  · exact get?_replace_of_ne hne value fields
  · exact get?_place_of_ne hne value fields

end Fields

end PayloadMapping
