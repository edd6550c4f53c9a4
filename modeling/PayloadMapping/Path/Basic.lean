import PayloadMapping.Text.Pieces

set_option autoImplicit false

/-!
# Dotted paths

A path is a list of segments without points in them, written with points between them. The empty
text is the path without segments, which names the value itself; every other text has one segment
more than it has points. So no text is parsed to the path of one empty segment, which is what is
left of a path such as `a.` after its first segment.
-/

namespace PayloadMapping

namespace Path

def split (text : String) : List String :=
  if text.toList = [] then [] else (Text.pieces '.' text.toList).map String.ofList

def join (segments : List String) : String := Text.join "." segments

def WellFormed (segments : List String) : Prop := ∀ s ∈ segments, '.' ∉ s.toList

theorem wellFormed_split (text : String) : WellFormed (split text) := by
  unfold split
  split
  · simp [WellFormed]
  · intro s hs
    obtain ⟨piece, hp, rfl⟩ := List.mem_map.1 hs
    simpa using Text.not_mem_of_mem_pieces '.' _ piece hp

theorem WellFormed.tail {segments : List String} (h : WellFormed segments) :
    WellFormed segments.tail := fun s hs => h s (List.mem_of_mem_tail hs)

end Path

structure Path where
  segments : List String
  wellFormed : Path.WellFormed segments
deriving DecidableEq

namespace Path

def parse (text : String) : Path := ⟨split text, wellFormed_split text⟩

def text (path : Path) : String := join path.segments

def isEmpty (path : Path) : Bool := path.segments.isEmpty

def first? (path : Path) : Option String := path.segments.head?

def rest (path : Path) : Path := ⟨path.segments.tail, path.wellFormed.tail⟩

def length (path : Path) : Nat := path.segments.length

end Path

end PayloadMapping
