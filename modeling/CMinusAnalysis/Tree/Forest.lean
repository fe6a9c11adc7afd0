import CMinusAnalysis.Tree.Basic

namespace CMinusAnalysis

/-! Following the links of a tree from a handle unfolds it into a forest: the
chain of siblings from that handle, each with the forests of its three child
slots. A node that is reached on several paths occurs once for each of them, so
a forest can be far larger than its tree. -/

/-- A node together with its handle. -/
structure Site where
  id : NodeId
  node : Node
  deriving DecidableEq, Repr

inductive Forest where
  | nil
  /-- A handle that addresses no node. -/
  | missing (fault : Fault)
  | cons (site : Site) (first second third rest : Forest)

/-- One event of a depth-first walk. -/
inductive Visit where
  /-- Before the children of the node. -/
  | enter (site : Site)
  /-- After the children of the node, before its next sibling. -/
  | leave (site : Site)
  | missing (fault : Fault)
  deriving DecidableEq, Repr

namespace Forest

/-- The visits of a depth-first walk. A node is entered, its slots are walked
in order, it is left, and then the walk goes on with its sibling. -/
def visits : Forest → List Visit
  | .nil => []
  | .missing fault => [.missing fault]
  | .cons site first second third rest =>
      .enter site :: (first.visits ++ (second.visits ++ (third.visits ++
        (.leave site :: rest.visits))))

@[simp] theorem visits_nil : Forest.nil.visits = [] := rfl

@[simp] theorem visits_missing (fault : Fault) :
    (Forest.missing fault).visits = [.missing fault] := rfl

@[simp] theorem visits_cons (site : Site)
    (first second third rest : Forest) :
    (Forest.cons site first second third rest).visits =
      .enter site :: (first.visits ++ (second.visits ++ (third.visits ++
        (.leave site :: rest.visits)))) := rfl

end Forest

namespace Tree

def unfoldWithin (tree : Tree) : Nat → Option NodeId → Forest
  | _, none => .nil
  | 0, some _ => .nil
  | steps + 1, some id =>
      match tree.node id with
      | .error fault => .missing fault
      | .ok node =>
          .cons ⟨id, node⟩ (tree.unfoldWithin steps node.first)
            (tree.unfoldWithin steps node.second)
            (tree.unfoldWithin steps node.third)
            (tree.unfoldWithin steps node.sibling)

/-- Unfolds the tree from `start`. A path without a cycle meets every node at
most once, so the bound on its links is never felt. -/
def unfold (tree : Tree) (start : Option NodeId) : Forest :=
  tree.unfoldWithin (tree.size + 1) start

def forest (tree : Tree) : Forest :=
  tree.unfold tree.root

end Tree

end CMinusAnalysis
