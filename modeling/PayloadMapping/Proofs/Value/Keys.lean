import Mathlib.Data.List.Nodup
import Mathlib.Data.String.Basic
import PayloadMapping.Value.Fields

set_option autoImplicit false

/-!
# Keys of fields

Which keys a list of fields has after an insertion or a merge, and when two insertions may
change places.
-/

namespace PayloadMapping.Fields

variable {α : Type}

theorem contains_iff_mem_keys (key : String) (fields : Fields α) :
    contains key fields = true ↔ key ∈ keys fields := by
  induction fields with
  | nil => simp [contains, get?, keys]
  | cons field rest ih =>
    obtain ⟨k, v⟩ := field
    by_cases hk : k = key
    · simp [contains, get?, keys, hk]
    · have hrest : contains key ((k, v) :: rest) = contains key rest := by
        simp [contains, get?, hk]
      rw [hrest, ih]
      simp [keys, Ne.symm hk]

theorem keys_replace (key : String) (value : α) (fields : Fields α) :
    keys (replace key value fields) = keys fields := by
  induction fields with
  | nil => rfl
  | cons field rest ih =>
    obtain ⟨k, v⟩ := field
    unfold replace
    split
    · rfl
    · simpa [keys] using ih

theorem mem_keys_place (key other : String) (value : α) (fields : Fields α) :
    other ∈ keys (place key value fields) ↔ other = key ∨ other ∈ keys fields := by
  induction fields with
  | nil => simp [place, keys]
  | cons field rest ih =>
    obtain ⟨k, v⟩ := field
    unfold place
    split
    · simp [keys]
    · have hrest : other ∈ keys ((k, v) :: place key value rest) ↔
          other = k ∨ other ∈ keys (place key value rest) := by simp [keys]
      rw [hrest, ih]
      simp only [keys, List.map_cons, List.mem_cons]
      tauto

theorem mem_keys_insert (key other : String) (value : α) (fields : Fields α) :
    other ∈ keys (insert key value fields) ↔ other = key ∨ other ∈ keys fields := by
  unfold insert
  split
  · rename_i h
    rw [keys_replace]
    constructor
    · exact .inr
    · rintro (rfl | hother)
      · exact (contains_iff_mem_keys _ _).1 h
      · exact hother
  · exact mem_keys_place _ _ _ _

theorem mem_keys_merge (key : String) (fields updates : Fields α) :
    key ∈ keys (merge fields updates) ↔ key ∈ keys fields ∨ key ∈ keys updates := by
  unfold merge
  induction updates generalizing fields with
  | nil => simp [keys]
  | cons field rest ih =>
    rw [List.foldl_cons, ih, mem_keys_insert]
    simp only [keys, List.map_cons, List.mem_cons]
    tauto

theorem insert_ne_nil (key : String) (value : α) (fields : Fields α) :
    insert key value fields ≠ [] := by
  intro h
  have hmem := (mem_keys_insert key key value fields).2 (.inl rfl)
  rw [h] at hmem
  cases hmem

theorem contains_insert_of_ne {key other : String} (hne : other ≠ key) (value : α)
    (fields : Fields α) : contains other (insert key value fields) = contains other fields := by
  unfold contains
  rw [get?_insert_of_ne hne]

theorem insert_of_contains {key : String} {fields : Fields α} (h : contains key fields = true)
    (value : α) : insert key value fields = replace key value fields := if_pos h

theorem insert_of_not_contains {key : String} {fields : Fields α}
    (h : contains key fields = false) (value : α) :
    insert key value fields = place key value fields := if_neg (by simp [h])

/-! ## Insertions one after another -/

theorem replace_replace_self (key : String) (value other : α) (fields : Fields α) :
    replace key value (replace key other fields) = replace key value fields := by
  induction fields with
  | nil => rfl
  | cons field rest ih =>
    obtain ⟨k, v⟩ := field
    by_cases hk : k = key <;> simp [replace, hk, ih]

theorem replace_place_self (key : String) (value other : α) {fields : Fields α}
    (h : contains key fields = false) :
    replace key value (place key other fields) = place key value fields := by
  induction fields with
  | nil => simp [place, replace]
  | cons field rest ih =>
    obtain ⟨k, v⟩ := field
    have hk : k ≠ key := by
      rintro rfl
      simp [contains, get?] at h
    have hrest : contains key rest = false := by simpa [contains, get?, hk] using h
    by_cases hlt : key < k
    · simp [place, replace, hlt]
    · simp [place, replace, hlt, hk, ih hrest]

theorem insert_insert_self (key : String) (value other : α) (fields : Fields α) :
    insert key value (insert key other fields) = insert key value fields := by
  have hthere : contains key (insert key other fields) = true := by simp [contains]
  rw [insert_of_contains hthere]
  by_cases h : contains key fields = true
  · rw [insert_of_contains h, insert_of_contains h, replace_replace_self]
  · have h : contains key fields = false := by simpa using h
    rw [insert_of_not_contains h, insert_of_not_contains h, replace_place_self key value other h]

theorem replace_comm {key other : String} (hne : key ≠ other) (value found : α)
    (fields : Fields α) :
    replace key value (replace other found fields) =
      replace other found (replace key value fields) := by
  induction fields with
  | nil => rfl
  | cons field rest ih =>
    obtain ⟨k, v⟩ := field
    by_cases hk : k = key
    · subst hk
      simp [replace, hne]
    · by_cases ho : k = other
      · subst ho
        simp [replace, hk]
      · simp [replace, hk, ho, ih]

theorem replace_place_comm {key other : String} (hne : key ≠ other) (value found : α)
    (fields : Fields α) :
    replace key value (place other found fields) =
      place other found (replace key value fields) := by
  induction fields with
  | nil => simp [replace, place, Ne.symm hne]
  | cons field rest ih =>
    obtain ⟨k, v⟩ := field
    by_cases hk : k = key
    · subst hk
      by_cases hlt : other < k <;> simp [replace, place, hlt, Ne.symm hne]
    · by_cases hlt : other < k <;> simp [replace, place, hlt, hk, Ne.symm hne, ih]

theorem place_comm {key other : String} (hne : key ≠ other) (value found : α)
    (fields : Fields α) :
    place key value (place other found fields) = place other found (place key value fields) := by
  induction fields with
  | nil =>
    rcases lt_or_gt_of_ne hne with h | h
    · simp [place, h, h.not_gt]
    · simp [place, h, h.not_gt]
  | cons field rest ih =>
    obtain ⟨k, v⟩ := field
    by_cases hk : key < k
    · by_cases ho : other < k
      · rcases lt_or_gt_of_ne hne with h | h
        · simp [place, hk, ho, h, h.not_gt]
        · simp [place, hk, ho, h, h.not_gt]
      · have hlt : key < other := lt_of_lt_of_le hk (le_of_not_gt ho)
        simp [place, hk, ho, hlt.not_gt]
    · by_cases ho : other < k
      · have hlt : other < key := lt_of_lt_of_le ho (le_of_not_gt hk)
        simp [place, hk, ho, hlt.not_gt]
      · simp [place, hk, ho, ih]

theorem insert_comm {key other : String} (hne : key ≠ other) (value found : α)
    (fields : Fields α) :
    insert key value (insert other found fields) =
      insert other found (insert key value fields) := by
  have hkey : contains key (insert other found fields) = contains key fields :=
    contains_insert_of_ne hne _ _
  have hother : contains other (insert key value fields) = contains other fields :=
    contains_insert_of_ne hne.symm _ _
  cases hk : contains key fields <;> cases ho : contains other fields
  · rw [insert_of_not_contains (hkey.trans hk), insert_of_not_contains (hother.trans ho),
      insert_of_not_contains hk, insert_of_not_contains ho, place_comm hne]
  · rw [insert_of_not_contains (hkey.trans hk), insert_of_contains (hother.trans ho),
      insert_of_not_contains hk, insert_of_contains ho, replace_place_comm hne.symm]
  · rw [insert_of_contains (hkey.trans hk), insert_of_not_contains (hother.trans ho),
      insert_of_contains hk, insert_of_not_contains ho, replace_place_comm hne]
  · rw [insert_of_contains (hkey.trans hk), insert_of_contains (hother.trans ho),
      insert_of_contains hk, insert_of_contains ho, replace_comm hne]

/-! ## Lists in key order -/

theorem merge_perm {updates others : Fields α} (h : updates.Perm others)
    (hkeys : (keys updates).Nodup) (fields : Fields α) :
    merge fields updates = merge fields others := by
  unfold merge
  refine h.foldl_eq' ?_ fields
  intro x hx y hy acc
  by_cases hkey : x.1 = y.1
  · have hsame : x = y := List.inj_on_of_nodup_map hkeys hx hy hkey
    rw [hsame]
  · exact insert_comm (Ne.symm hkey) _ _ _

/-- The order in which the fields of an object were read does not count. -/
theorem sorted_perm {fields others : Fields α} (h : fields.Perm others)
    (hkeys : (keys fields).Nodup) : sorted fields = sorted others := merge_perm h hkeys []

theorem perm_place (key : String) (value : α) (fields : Fields α) :
    (place key value fields).Perm ((key, value) :: fields) := by
  induction fields with
  | nil => exact .refl _
  | cons field rest ih =>
    obtain ⟨k, v⟩ := field
    unfold place
    split
    · exact .refl _
    · exact (ih.cons (k, v)).trans (.swap _ _ _)

/-- Merging a list whose keys are new and each there once adds it. -/
theorem perm_merge : ∀ {updates fields : Fields α}, (keys updates).Nodup →
    (∀ key ∈ keys updates, key ∉ keys fields) → (merge fields updates).Perm (updates ++ fields)
  | [], fields, _, _ => .refl fields
  | (key, value) :: rest, fields, hkeys, hnew => by
    obtain ⟨hfirst, hrest⟩ := List.nodup_cons.1 hkeys
    have hfree : contains key fields = false := by
      rw [Bool.eq_false_iff]
      intro h
      exact hnew key List.mem_cons_self ((contains_iff_mem_keys _ _).1 h)
    have hinserted : ∀ other ∈ keys rest, other ∉ keys (insert key value fields) := by
      intro other hother h
      rcases (mem_keys_insert _ _ _ _).1 h with rfl | h
      · exact hfirst hother
      · exact hnew other (List.mem_cons_of_mem _ hother) h
    have hplaced : (insert key value fields).Perm ((key, value) :: fields) := by
      rw [insert_of_not_contains hfree]
      exact perm_place key value fields
    have hmerged := perm_merge hrest hinserted
    exact hmerged.trans ((hplaced.append_left rest).trans List.perm_middle)

theorem perm_sorted {fields : Fields α} (h : (keys fields).Nodup) :
    (sorted fields).Perm fields := by
  have hmerged : (merge [] fields).Perm (fields ++ []) := perm_merge h fun _ _ => by simp [keys]
  rwa [List.append_nil] at hmerged

theorem length_insert (key : String) (value : α) (fields : Fields α) :
    (insert key value fields).length =
      if contains key fields then fields.length else fields.length + 1 := by
  unfold insert
  split
  · have hkeys := congrArg List.length (keys_replace key value fields)
    unfold keys at hkeys
    rwa [List.length_map, List.length_map] at hkeys
  · rw [(perm_place key value fields).length_eq, List.length_cons]

theorem length_merge_le (fields updates : Fields α) :
    (merge fields updates).length ≤ fields.length + updates.length := by
  induction updates generalizing fields with
  | nil => exact le_refl _
  | cons field rest ih =>
    obtain ⟨key, value⟩ := field
    have hrest := ih (insert key value fields)
    have hfirst := length_insert key value fields
    change (merge (insert key value fields) rest).length ≤ _
    rw [List.length_cons]
    split_ifs at hfirst <;> omega

theorem nodup_of_length_merge {updates fields : Fields α}
    (h : (merge fields updates).length = fields.length + updates.length) :
    (keys updates).Nodup ∧ ∀ key ∈ keys updates, key ∉ keys fields := by
  induction updates generalizing fields with
  | nil => exact ⟨List.nodup_nil, by simp [keys]⟩
  | cons field rest ih =>
    obtain ⟨key, value⟩ := field
    change (merge (insert key value fields) rest).length = _ at h
    have hbound := length_merge_le (insert key value fields) rest
    have hinsert := length_insert key value fields
    have hnew : contains key fields = false := by
      rw [Bool.eq_false_iff]
      intro hthere
      rw [if_pos hthere] at hinsert
      rw [List.length_cons] at h
      omega
    rw [if_neg (by simp [hnew])] at hinsert
    obtain ⟨hrest, hothers⟩ := ih (by rw [h, hinsert, List.length_cons]; omega)
    have hkey : key ∉ keys rest := by
      intro hmem
      exact hothers key hmem ((mem_keys_insert _ _ _ _).2 (.inl rfl))
    refine ⟨List.nodup_cons.2 ⟨hkey, hrest⟩, ?_⟩
    intro other hother hmem
    rcases List.mem_cons.1 hother with rfl | hother
    · rw [(contains_iff_mem_keys _ _).2 hmem] at hnew
      cases hnew
    · exact hothers other hother ((mem_keys_insert _ _ _ _).2 (.inr hmem))

theorem place_of_lt (key : String) (value : α) {fields : Fields α}
    (h : ∀ other ∈ keys fields, other < key) :
    place key value fields = fields ++ [(key, value)] := by
  induction fields with
  | nil => rfl
  | cons field rest ih =>
    obtain ⟨k, v⟩ := field
    obtain ⟨hk, hrest⟩ := List.forall_mem_cons.1 h
    rw [place, if_neg hk.not_gt, ih hrest, List.cons_append]

theorem insert_of_lt (key : String) (value : α) {fields : Fields α}
    (h : ∀ other ∈ keys fields, other < key) :
    insert key value fields = fields ++ [(key, value)] := by
  have hfree : contains key fields = false := by
    rw [Bool.eq_false_iff]
    intro hmem
    exact lt_irrefl key (h key ((contains_iff_mem_keys _ _).1 hmem))
  rw [insert_of_not_contains hfree, place_of_lt key value h]

theorem sorted_of_pairwise {fields : Fields α} (h : (keys fields).Pairwise (· < ·)) :
    sorted fields = fields := by
  have hmerge : ∀ rest acc : Fields α, (keys (acc ++ rest)).Pairwise (· < ·) →
      merge acc rest = acc ++ rest := by
    intro rest
    induction rest with
    | nil =>
      intro acc _
      rw [List.append_nil]
      rfl
    | cons field rest ih =>
      intro acc hacc
      obtain ⟨key, value⟩ := field
      have hlast : ∀ other ∈ keys acc, other < key := by
        intro other hother
        unfold keys at hacc hother
        rw [List.map_append] at hacc
        exact (List.pairwise_append.1 hacc).2.2 other hother key List.mem_cons_self
      change merge (insert key value acc) rest = _
      rw [insert_of_lt key value hlast, ih _ (by rwa [List.append_assoc]), List.append_assoc]
      rfl
  exact hmerge fields [] h

theorem sorted_eq_of_perm {fields others : Fields α} (h : fields.Perm others)
    (hsorted : (keys others).Pairwise (· < ·)) : sorted fields = others := by
  have hkeys : (keys fields).Nodup :=
    (h.map Prod.fst).nodup_iff.2 (hsorted.imp fun hlt => ne_of_lt hlt)
  rw [sorted_perm h hkeys, sorted_of_pairwise hsorted]

/-- The fields are in key order, and every key is there once. -/
def InOrder (fields : Fields α) : Prop := (keys fields).Pairwise (· < ·)

namespace InOrder

variable {fields : Fields α}

theorem nil : InOrder ([] : Fields α) := List.Pairwise.nil

theorem nodup (h : InOrder fields) : (keys fields).Nodup := h.imp fun hlt => ne_of_lt hlt

theorem place (h : InOrder fields) {key : String} (hfree : key ∉ keys fields) (value : α) :
    InOrder (place key value fields) := by
  induction fields with
  | nil => exact List.pairwise_singleton _ _
  | cons field rest ih =>
    obtain ⟨k, v⟩ := field
    obtain ⟨hfirst, hrest⟩ := List.pairwise_cons.1 h
    have hne : key ≠ k := fun heq => hfree (heq ▸ List.mem_cons_self)
    unfold Fields.place
    split
    · rename_i hlt
      refine List.pairwise_cons.2 ⟨?_, h⟩
      intro other hother
      rcases List.mem_cons.1 hother with rfl | hother
      · exact hlt
      · exact hlt.trans (hfirst other hother)
    · rename_i hge
      have hlt : k < key := lt_of_le_of_ne (le_of_not_gt hge) hne.symm
      refine List.pairwise_cons.2 ⟨?_, ih hrest fun hmem => hfree (List.mem_cons_of_mem _ hmem)⟩
      intro other hother
      rcases (mem_keys_place _ _ _ _).1 hother with rfl | hother
      · exact hlt
      · exact hfirst other hother

theorem insert (h : InOrder fields) (key : String) (value : α) :
    InOrder (insert key value fields) := by
  unfold Fields.insert
  split
  · unfold InOrder
    rw [keys_replace]
    exact h
  · rename_i hfree
    exact h.place (fun hmem => hfree ((contains_iff_mem_keys _ _).2 hmem)) value

theorem merge (h : InOrder fields) (updates : Fields α) : InOrder (merge fields updates) := by
  induction updates generalizing fields with
  | nil => exact h
  | cons field rest ih => exact ih (h.insert field.1 field.2)

end InOrder

/-! ## Merging in parts -/

theorem merge_insert_of_not_mem {key : String} {updates : Fields α} (h : key ∉ keys updates)
    (value : α) (fields : Fields α) :
    merge (insert key value fields) updates = insert key value (merge fields updates) := by
  induction updates generalizing fields with
  | nil => rfl
  | cons field rest ih =>
    obtain ⟨k, v⟩ := field
    have hne : k ≠ key := fun heq => h (heq ▸ List.mem_cons_self)
    change merge (insert k v (insert key value fields)) rest = _
    rw [insert_comm hne]
    exact ih (fun hmem => h (List.mem_cons_of_mem _ hmem)) _

theorem merge_replace {key : String} {updates : Fields α} (hkeys : (keys updates).Nodup)
    (hthere : key ∈ keys updates) (value : α) (fields : Fields α) :
    merge fields (replace key value updates) = insert key value (merge fields updates) := by
  induction updates generalizing fields with
  | nil => cases hthere
  | cons field rest ih =>
    obtain ⟨k, v⟩ := field
    obtain ⟨hfirst, hrest⟩ := List.nodup_cons.1 hkeys
    by_cases hk : k = key
    · subst hk
      rw [replace, if_pos rfl]
      change merge (insert k value fields) rest = insert k value (merge (insert k v fields) rest)
      rw [merge_insert_of_not_mem hfirst, merge_insert_of_not_mem hfirst, insert_insert_self]
    · rw [replace, if_neg hk]
      have hlater : key ∈ keys rest := (List.mem_cons.1 hthere).resolve_left (Ne.symm hk)
      exact ih hrest hlater _

/-- What is inserted into updates may as well be inserted after they were merged. -/
theorem merge_insert {updates : Fields α} (hkeys : (keys updates).Nodup) (key : String)
    (value : α) (fields : Fields α) :
    merge fields (insert key value updates) = insert key value (merge fields updates) := by
  by_cases hthere : key ∈ keys updates
  · rw [insert_of_contains ((contains_iff_mem_keys _ _).2 hthere),
      merge_replace hkeys hthere]
  · have hfree : contains key updates = false := by
      rwa [Bool.eq_false_iff, ne_eq, contains_iff_mem_keys]
    have hplaced : (place key value updates).Perm ((key, value) :: updates) :=
      perm_place key value updates
    have hnodup : (keys (place key value updates)).Nodup :=
      (hplaced.map Prod.fst).nodup_iff.2 (List.nodup_cons.2 ⟨hthere, hkeys⟩)
    rw [insert_of_not_contains hfree, merge_perm hplaced hnodup]
    exact merge_insert_of_not_mem hthere value fields

theorem merge_merge {updates : Fields α} (h : InOrder updates) (more fields : Fields α) :
    merge fields (merge updates more) = merge (merge fields updates) more := by
  induction more generalizing updates with
  | nil => rfl
  | cons field rest ih =>
    change merge fields (merge (insert field.1 field.2 updates) rest) = _
    rw [ih (h.insert _ _), merge_insert h.nodup]
    rfl

theorem get?_merge_of_not_mem {key : String} {fields : Fields α} (h : key ∉ keys fields)
    {updates : Fields α} (hkeys : (keys updates).Nodup) :
    get? key (merge fields updates) = get? key updates := by
  induction updates generalizing fields with
  | nil =>
    have hfree : contains key fields = false := by
      rwa [Bool.eq_false_iff, ne_eq, contains_iff_mem_keys]
    simpa [merge, get?, contains] using hfree
  | cons field rest ih =>
    obtain ⟨k, v⟩ := field
    obtain ⟨hfirst, hrest⟩ := List.nodup_cons.1 hkeys
    change get? key (merge (insert k v fields) rest) = _
    by_cases hk : k = key
    · subst hk
      rw [merge_insert_of_not_mem hfirst, get?_insert_self, get?, if_pos rfl]
    · have hother : key ∉ keys (insert k v fields) := by
        rw [mem_keys_insert]
        exact fun hmem => hmem.elim (fun heq => hk heq.symm) h
      rw [ih hother hrest, get?, if_neg hk]

end PayloadMapping.Fields
