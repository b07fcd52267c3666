import Reckon.Token.Leaf

/-! Trees of leaves. A node is a leaf, a placeholder, or a group of nodes that were found one after
another. A group is empty if all its nodes are. It begins where its first non-empty node begins and
ends where its last non-empty node ends; an empty group stands where its first node stands. -/

namespace Reckon

/-- How the nodes of a group came together. -/
inductive Grouping where
  | sequence
  | repetition
  deriving DecidableEq

inductive Node where
  | leaf (leaf : Leaf)
  | missing (here : Position)
  | group (grouping : Grouping) (head : Node) (tail : List Node)

namespace Node

mutual

def leaves : Node → List Leaf
  | .leaf l => [l]
  | .missing _ => []
  | .group _ head tail => leaves head ++ leavesAll tail

def leavesAll : List Node → List Leaf
  | [] => []
  | n :: ns => leaves n ++ leavesAll ns

end

/-- Whether the tree stands for no text. -/
def isEmpty (n : Node) : Bool := n.leaves.isEmpty

/-- Where the tree stands if it stands for no text. -/
def place : Node → Position
  | .leaf l => l.first
  | .missing here => here
  | .group _ head _ => place head

instance : Spanned Node where
  first n := (n.leaves.head?.map Leaf.first).getD n.place
  last n := (n.leaves.getLast?.map Leaf.last).getD n.place
  isEmpty := isEmpty

def text (n : Node) : String := String.join (n.leaves.map Leaf.text)

/-- A single leaf in place of the tree, unless the tree is empty. -/
def join (kind : LeafKind) (n : Node) : Node :=
  if n.isEmpty then n else .leaf ⟨kind, n.text, Spanned.first n, Spanned.last n⟩

end Node

end Reckon
