import CMinusAnalysis.Tree.Node

namespace CMinusAnalysis

/-! A program tree is an arena of nodes and the handle of its first top-level
declaration. Nothing forces the handles to be in range or the links to form a
tree: a node may be reached on several paths, and a handle may dangle. -/

structure Tree where
  nodes : Array Node := #[]
  root : Option NodeId := none
  deriving Repr

namespace Tree

def size (tree : Tree) : Nat :=
  tree.nodes.size

def isEmpty (tree : Tree) : Bool :=
  tree.nodes.isEmpty

def ids (tree : Tree) : List NodeId :=
  (List.range tree.size).map NodeId.mk

def node (tree : Tree) (id : NodeId) : Except Fault Node :=
  fetch tree.nodes id.index

@[simp] theorem node_eq_ok_iff {tree : Tree} {id : NodeId} {node : Node} :
    tree.node id = .ok node ↔ tree.nodes[id.index]? = some node :=
  fetch_eq_ok_iff

@[simp] theorem node_eq_error_iff {tree : Tree} {id : NodeId}
    {fault : Fault} :
    tree.node id = .error fault ↔
      tree.size ≤ id.index ∧ fault = ⟨tree.size, id.index⟩ :=
  fetch_eq_error_iff

def siblingsWithin (tree : Tree) :
    Nat → Option NodeId → Except Fault (List NodeId)
  | _, none => .ok []
  | 0, some _ => .ok []
  | steps + 1, some id => do
      let node ← tree.node id
      let rest ← tree.siblingsWithin steps node.sibling
      return id :: rest

/-- The sibling chain from `start`. A chain without a cycle meets every node at
most once, so the bound on its links is never felt. -/
def siblings (tree : Tree) (start : Option NodeId) :
    Except Fault (List NodeId) :=
  tree.siblingsWithin (tree.size + 1) start

end Tree

end CMinusAnalysis
