import Mathlib.Logic.Function.Basic
import PayloadMapping.Mapping.Decode
import PayloadMapping.Proofs.Path.Text

set_option autoImplicit false

/-!
# Texts and lists of segments

Cutting a text at its points and joining the pieces gives the text back, so every text is the text
of one path, and a point between two texts puts the segments of their paths one after the other.
Of all lists of segments without points only the one of a single empty segment is not recovered
from its text, which is that of the path without segments.
-/

namespace PayloadMapping

namespace Text

theorem join_cons (separator s : String) {rest : List String} (h : rest ≠ []) :
    join separator (s :: rest) = s ++ separator ++ join separator rest := by
  cases rest with
  | nil => exact absurd rfl h
  | cons t more => rfl

theorem join_append_cons (separator s t : String) (rest : List String) :
    join separator ((s ++ t) :: rest) = s ++ join separator (t :: rest) := by
  cases rest with
  | nil => rfl
  | cons u more => simp only [join, String.append_assoc]

theorem join_append (separator : String) {texts more : List String} (htexts : texts ≠ [])
    (hmore : more ≠ []) :
    join separator (texts ++ more) = join separator texts ++ separator ++ join separator more := by
  induction texts with
  | nil => exact absurd rfl htexts
  | cons s rest ih =>
    rw [List.cons_append, join_cons separator s (List.append_ne_nil_of_right_ne_nil rest hmore)]
    by_cases hrest : rest = []
    · subst hrest
      rfl
    · rw [ih hrest, join_cons separator s hrest]
      simp only [String.append_assoc]

theorem join_pieces (separator : Char) (cs : List Char) :
    join (String.ofList [separator]) ((pieces separator cs).map String.ofList) =
      String.ofList cs := by
  induction cs with
  | nil => rfl
  | cons c rest ih =>
    have hcons : ∀ more : List Char,
        String.ofList (c :: more) = String.ofList [c] ++ String.ofList more := by
      intro more
      rw [← String.ofList_append, List.singleton_append]
    obtain ⟨piece, more, hpieces⟩ := List.exists_cons_of_ne_nil (pieces_ne_nil separator rest)
    rw [pieces, hpieces]
    rw [hpieces] at ih
    by_cases hc : c = separator
    · rw [if_pos hc, List.map_cons, join_cons _ _ (by simp), ih, hcons rest, hc]
      simp
    · rw [if_neg hc, List.map_cons, hcons piece, join_append_cons, ← List.map_cons, ih]
      exact (hcons rest).symm

end Text

namespace Path

theorem join_split (text : String) : join (split text) = text := by
  unfold join split
  split
  · rename_i hnil
    exact (String.toList_eq_nil_iff.1 hnil).symm
  · have hjoined := Text.join_pieces '.' text.toList
    rwa [String.ofList_toList] at hjoined

@[simp] theorem text_parse (text : String) : (parse text).text = text := join_split text

theorem split_ne_nil {text : String} (h : text ≠ "") : split text ≠ [] := by
  intro hnil
  have hjoined := join_split text
  rw [hnil] at hjoined
  exact h hjoined.symm

theorem canonical_parse (text : String) : (parse text).canonical = parse text := by
  unfold canonical
  rw [text_parse]

/-- The paths of texts are those that are not one empty segment. -/
theorem exists_parse_iff {path : Path} : (∃ text, parse text = path) ↔ path.segments ≠ [""] := by
  rw [← canonical_eq_self_iff]
  constructor
  · rintro ⟨text, rfl⟩
    exact canonical_parse text
  · exact fun h => ⟨path.text, h⟩

theorem split_append_point {a b : String} (ha : a ≠ "") (hb : b ≠ "") :
    split (a ++ "." ++ b) = split a ++ split b := by
  have hjoined : join (split a ++ split b) = a ++ "." ++ b := by
    have happended := Text.join_append "." (split_ne_nil ha) (split_ne_nil hb)
    rwa [← join, ← join, ← join, join_split, join_split] at happended
  have hpoints : ∀ s ∈ split a ++ split b, '.' ∉ s.toList :=
    List.forall_mem_append.2 ⟨wellFormed_split a, wellFormed_split b⟩
  have hseveral : split a ++ split b ≠ [""] := by
    intro hone
    have hlength := congrArg List.length hone
    have hpos := List.length_pos_iff.2 (split_ne_nil ha)
    have hpos' := List.length_pos_iff.2 (split_ne_nil hb)
    rw [List.length_append, List.length_singleton] at hlength
    omega
  rw [← hjoined]
  exact (split_join_iff hpoints).2 hseveral

theorem text_eq_first_point_rest (path : Path) (h : 2 ≤ path.length) :
    ∃ first, path.first? = some first ∧ path.text = first ++ "." ++ path.rest.text := by
  obtain ⟨segments, hwell⟩ := path
  match segments, hwell, h with
  | first :: second :: more, _, _ => exact ⟨first, rfl, rfl⟩

end Path

theorem FieldRule.decodePath_ok_iff {v : Value} {path : Path} :
    decodePath v = .ok path ↔ ∃ s, v = .string s ∧ Path.parse s = path := by
  cases v <;> simp [decodePath, Decode.text, Decode.wrongType, Except.map]

namespace Path

/-- A text is the text of the path that it is parsed to, so different texts are parsed to
different paths, and these are all paths but the one of one empty segment; a value stands for such
a path exactly if it is the text of it. Lists of segments without points are recovered from their
texts, but for the list of one empty segment. Texts with a point between them are cut into the
segments of both. The text of more than one segment is the first, a point, and the text of the
others. -/
theorem texts_correspond_to_segments :
    (∀ text, (parse text).text = text) ∧
    Function.Injective parse ∧
    (∀ path, (∃ text, parse text = path) ↔ path.segments ≠ [""]) ∧
    (∀ v path, FieldRule.decodePath v = .ok path ↔
      v = .string path.text ∧ path.segments ≠ [""]) ∧
    (∀ segments : List String, (∀ s ∈ segments, '.' ∉ s.toList) →
      ((parse (join segments)).segments = segments ↔ segments ≠ [""])) ∧
    (∀ a b, a ≠ "" → b ≠ "" →
      (parse (a ++ "." ++ b)).segments = (parse a).segments ++ (parse b).segments) ∧
    ∀ path : Path, 2 ≤ path.length →
      ∃ first, path.first? = some first ∧ path.text = first ++ "." ++ path.rest.text := by
  refine ⟨text_parse, ?_, fun path => exists_parse_iff, fun v path => ?_,
    fun segments hpoints => split_join_iff hpoints, fun a b ha hb => split_append_point ha hb,
    text_eq_first_point_rest⟩
  · exact Function.LeftInverse.injective (g := text) text_parse
  · rw [FieldRule.decodePath_ok_iff, ← canonical_eq_self_iff]
    constructor
    · rintro ⟨s, rfl, rfl⟩
      exact ⟨congrArg Value.string (text_parse s).symm, canonical_parse s⟩
    · rintro ⟨rfl, hself⟩
      exact ⟨path.text, rfl, hself⟩

/-- Points at the ends and next to each other make empty segments; one empty segment alone has the
text of no segment. -/
theorem texts_correspond_to_segments_points :
    (∀ s ∈ ["", "", "a", ""], '.' ∉ s.toList) ∧
      (parse "..a.").segments = ["", "", "a", ""] ∧
      (∀ s ∈ [""], '.' ∉ s.toList) ∧ (parse (join [""])).segments ≠ [""] ∧
      ("." ≠ "" ∧ ".a" ≠ "") ∧
      (parse ("." ++ "." ++ ".a")).segments = (parse ".").segments ++ (parse ".a").segments ∧
      2 ≤ (parse "..a.").length ∧
      ∃ first, (parse "..a.").first? = some first ∧
        (parse "..a.").text = first ++ "." ++ (parse "..a.").rest.text := by
  obtain ⟨-, -, -, -, hrecovered, happended, hfirst⟩ := texts_correspond_to_segments
  have hpoints : ∀ s ∈ ["", "", "a", ""], '.' ∉ s.toList := by decide
  have hempty : ∀ s ∈ [""], '.' ∉ s.toList := by decide
  have hseveral : 2 ≤ (parse "..a.").length := by decide
  refine ⟨hpoints, (hrecovered _ hpoints).2 (by decide), hempty, ?_, by decide,
    happended "." ".a" (by decide) (by decide), hseveral, hfirst _ hseveral⟩
  exact fun h => (hrecovered _ hempty).1 h rfl

end Path

end PayloadMapping
