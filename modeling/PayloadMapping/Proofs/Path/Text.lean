import PayloadMapping.Path.Basic

set_option autoImplicit false

/-!
# Paths and their texts

A path is the one that its text is parsed to, unless it is the path of one empty segment: the text
of that one is empty, and the empty text is the path without segments.
-/

namespace PayloadMapping

namespace Text

theorem pieces_of_not_mem {separator : Char} {piece : List Char} (h : separator ∉ piece) :
    pieces separator piece = [piece] := by
  induction piece with
  | nil => rfl
  | cons c rest ih =>
    have hc : c ≠ separator := fun hc => h (hc ▸ List.mem_cons_self)
    have hrest : separator ∉ rest := fun hmem => h (List.mem_cons_of_mem _ hmem)
    rw [pieces, if_neg hc, ih hrest]

theorem pieces_append_cons {separator : Char} {piece : List Char} (h : separator ∉ piece)
    (rest : List Char) :
    pieces separator (piece ++ separator :: rest) = piece :: pieces separator rest := by
  induction piece with
  | nil => rw [List.nil_append, pieces, if_pos rfl]
  | cons c more ih =>
    have hc : c ≠ separator := fun hc => h (hc ▸ List.mem_cons_self)
    have hmore : separator ∉ more := fun hmem => h (List.mem_cons_of_mem _ hmem)
    rw [List.cons_append, pieces, if_neg hc, ih hmore]

/-- Joined texts without separators are cut into themselves. -/
theorem pieces_join {separator : Char} : ∀ {texts : List String}, texts ≠ [] →
    (∀ s ∈ texts, separator ∉ s.toList) →
    pieces separator (join (String.ofList [separator]) texts).toList = texts.map String.toList
  | [], h, _ => absurd rfl h
  | [s], _, h => by
    rw [join]
    exact pieces_of_not_mem (h s (List.mem_singleton.2 rfl))
  | s :: t :: rest, _, h => by
    obtain ⟨hs, hrest⟩ := List.forall_mem_cons.1 h
    have hjoined : (join (String.ofList [separator]) (s :: t :: rest)).toList =
        s.toList ++ separator :: (join (String.ofList [separator]) (t :: rest)).toList := by
      simp [join]
    rw [hjoined, pieces_append_cons hs, pieces_join (by simp) hrest]
    rfl

theorem join_eq_empty {separator : String} (hseparator : separator ≠ "") {texts : List String}
    (h : join separator texts = "") : texts = [] ∨ texts = [""] := by
  match texts, h with
  | [], _ => exact .inl rfl
  | [s], h => exact .inr (by rw [show s = "" from h])
  | s :: t :: rest, h => simp [join, hseparator] at h

end Text

namespace Path

theorem split_join {segments : List String} (h : WellFormed segments) (hempty : segments ≠ [""]) :
    split (join segments) = segments := by
  unfold split join
  by_cases hnil : segments = []
  · subst hnil
    rfl
  · have htext : (Text.join "." segments).toList ≠ [] := by
      intro htext
      have hjoined : Text.join "." segments = "" := by simpa using htext
      rcases Text.join_eq_empty (by decide) hjoined with h | h
      · exact hnil h
      · exact hempty h
    have hpieces : Text.pieces '.' (Text.join "." segments).toList = segments.map String.toList :=
      Text.pieces_join hnil h
    rw [if_neg htext, hpieces, List.map_map]
    simp [Function.comp_def]

/-- Segments without points are recovered from their text, unless they are one empty segment. -/
theorem split_join_iff {segments : List String} (h : WellFormed segments) :
    split (join segments) = segments ↔ segments ≠ [""] := by
  constructor
  · rintro hjoined rfl
    cases hjoined
  · exact split_join h

/-- The path that the text of a path is parsed to. -/
def canonical (path : Path) : Path := parse path.text

theorem canonical_eq_self_iff {path : Path} : path.canonical = path ↔ path.segments ≠ [""] := by
  obtain ⟨segments, hwell⟩ := path
  unfold canonical parse text
  rw [Path.mk.injEq]
  exact split_join_iff hwell

end Path

end PayloadMapping
