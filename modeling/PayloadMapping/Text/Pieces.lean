set_option autoImplicit false

/-!
# Pieces of texts

A text is cut into pieces at every occurrence of a separating character, and pieces are joined
with a text between them. Cutting gives at least one piece, and no piece holds the separator.
-/

namespace PayloadMapping.Text

def pieces (separator : Char) : List Char → List (List Char)
  | [] => [[]]
  | c :: rest =>
    if c = separator then [] :: pieces separator rest
    else match pieces separator rest with
      | piece :: more => (c :: piece) :: more
      | [] => [[c]]

def join (separator : String) : List String → String
  | [] => ""
  | [s] => s
  | s :: rest => s ++ separator ++ join separator rest

theorem pieces_ne_nil (separator : Char) (cs : List Char) : pieces separator cs ≠ [] := by
  cases cs with
  | nil => simp [pieces]
  | cons c rest =>
    unfold pieces
    split
    · simp
    · split <;> simp

theorem not_mem_of_mem_pieces (separator : Char) (cs : List Char) :
    ∀ piece ∈ pieces separator cs, separator ∉ piece := by
  induction cs with
  | nil => simp [pieces]
  | cons c rest ih =>
    unfold pieces
    split
    · intro piece h
      rcases List.mem_cons.1 h with rfl | h
      · simp
      · exact ih piece h
    · rename_i hc
      cases hs : pieces separator rest with
      | nil => exact absurd hs (pieces_ne_nil separator rest)
      | cons first more =>
        intro piece h
        rcases List.mem_cons.1 h with rfl | h
        · intro hm
          rcases List.mem_cons.1 hm with rfl | hm
          · exact hc rfl
          · exact ih first (by simp [hs]) hm
        · exact ih piece (by simp [hs, h])

end PayloadMapping.Text
