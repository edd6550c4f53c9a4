import PayloadMapping.Yaml.Part

set_option autoImplicit false

/-!
# Nodes of YAML

The tree that the parts of a document make up: scalars, sequences and mappings with their tags,
and aliases, which stand for anchored nodes. Where the parts break off, all collections that are
open end with a cut. `Node.ofParts` makes the tree.
-/

namespace PayloadMapping.Yaml

inductive Node where
  | scalar (mark : Mark) (anchor : Option Nat) (tag : Option Tag) (text : String) (plain : Bool)
  | sequence (mark : Mark) (anchor : Option Nat) (tag : Option Tag) (items : List Node)
  | mapping (mark : Mark) (anchor : Option Nat) (tag : Option Tag) (entries : List (Node × Node))
  | alias (mark : Mark) (target : Nat)
  | cut

namespace Node

def isCut : Node → Bool
  | .cut => true
  | _ => false

mutual

def size : Node → Nat
  | .scalar _ _ _ _ _ | .alias _ _ => 1
  | .sequence _ _ _ items => 1 + sizeItems items
  | .mapping _ _ _ entries => 1 + sizeEntries entries
  | .cut => 0

def sizeItems : List Node → Nat
  | [] => 1
  | node :: rest => if node.isCut then 0 else size node + sizeItems rest

def sizeEntries : List (Node × Node) → Nat
  | [] => 1
  | (key, value) :: rest =>
    if value.isCut then size key else size key + size value + sizeEntries rest

end

def withSelf (number : Option Nat) (node : Node) (inner : List (Nat × Node)) :
    List (Nat × Node) :=
  match number with
  | some n => (n, node) :: inner
  | none => inner

mutual

/-- The anchored nodes in a node, in the order of their starts. -/
def anchored : Node → List (Nat × Node)
  | .scalar mark anchor tag text plain =>
    withSelf anchor (.scalar mark anchor tag text plain) []
  | .sequence mark anchor tag items =>
    withSelf anchor (.sequence mark anchor tag items) (anchoredItems items)
  | .mapping mark anchor tag entries =>
    withSelf anchor (.mapping mark anchor tag entries) (anchoredEntries entries)
  | .alias _ _ | .cut => []

def anchoredItems : List Node → List (Nat × Node)
  | [] => []
  | node :: rest => anchored node ++ anchoredItems rest

def anchoredEntries : List (Node × Node) → List (Nat × Node)
  | [] => []
  | (key, value) :: rest => anchored key ++ anchored value ++ anchoredEntries rest

end

/-- Keys with their values, from nodes in turn. A key at the end has no value. -/
def pairs : List Node → List (Node × Node)
  | key :: value :: rest => (key, value) :: pairs rest
  | [key] => [(key, .cut)]
  | [] => []

end Node

/-- A collection that is open, with the nodes in it so far, in reverse. -/
structure OpenNode where
  isMapping : Bool
  mark : Mark
  anchor : Option Nat
  tag : Option Tag
  read : List Node

namespace OpenNode

def add (node : Node) (collection : OpenNode) : OpenNode :=
  { collection with read := node :: collection.read }

def toNode (collection : OpenNode) : Node :=
  let nodes := collection.read.reverse
  if collection.isMapping then
    .mapping collection.mark collection.anchor collection.tag (Node.pairs nodes)
  else .sequence collection.mark collection.anchor collection.tag nodes

end OpenNode

/-- A tree in the making: the open collections, the innermost first, and the root once it is
complete. -/
structure Tree where
  collections : List OpenNode := []
  root : Option Node := none

namespace Tree

def add (node : Node) (tree : Tree) : Tree :=
  match tree.collections with
  | inner :: outer => { tree with collections := inner.add node :: outer }
  | [] => { tree with root := some node }

def openNode (collection : OpenNode) (tree : Tree) : Tree :=
  { tree with collections := collection :: tree.collections }

def close (tree : Tree) : Tree :=
  match tree.collections with
  | inner :: outer => { tree with collections := outer }.add inner.toNode
  | [] => tree

def addPart (tree : Tree) : Part Nat → Tree
  | .scalar mark anchor tag text plain => tree.add (.scalar mark anchor tag text plain)
  | .sequence mark anchor tag => tree.openNode ⟨false, mark, anchor, tag, []⟩
  | .mapping mark anchor tag => tree.openNode ⟨true, mark, anchor, tag, []⟩
  | .alias mark target => tree.add (.alias mark target)
  | .close => tree.close

/-- The root. Collections that are still open end with a cut after the node that is cut. -/
def toNode (tree : Tree) : Node :=
  match tree.root with
  | some node => node
  | none =>
    tree.collections.foldl
      (fun inner collection => ((collection.add inner).add .cut).toNode) .cut

end Tree

def Node.ofParts (parts : List (Part Nat)) : Node := (parts.foldl Tree.addPart {}).toNode

def Node.mark : Node → Mark
  | .scalar mark _ _ _ _ | .sequence mark _ _ _ | .mapping mark _ _ _ | .alias mark _ => mark
  | .cut => ⟨0, 0, 0⟩

end PayloadMapping.Yaml
