import CMinusAnalysis.Tree.Forest

namespace CMinusAnalysis

/-! A walk goes through the visits of a forest without unfolding it first, so a
walk that stops early never meets what lies behind the place where it
stopped. -/

namespace Tree

@[specialize] def walkWithin [Monad m] (tree : Tree)
    (visit : σ → Visit → m σ) : Nat → Option NodeId → σ → m σ
  | _, none, state => pure state
  | 0, some _, state => pure state
  | steps + 1, some id, state =>
      match tree.node id with
      | .error fault => visit state (.missing fault)
      | .ok node => do
          let state ← visit state (.enter ⟨id, node⟩)
          let state ← tree.walkWithin visit steps node.first state
          let state ← tree.walkWithin visit steps node.second state
          let state ← tree.walkWithin visit steps node.third state
          let state ← visit state (.leave ⟨id, node⟩)
          tree.walkWithin visit steps node.sibling state

@[inline] def walk [Monad m] (tree : Tree) (visit : σ → Visit → m σ)
    (start : Option NodeId) (state : σ) : m σ :=
  tree.walkWithin visit (tree.size + 1) start state

theorem walkWithin_eq_foldlM [Monad m] [LawfulMonad m] (tree : Tree)
    (visit : σ → Visit → m σ) (steps : Nat) (start : Option NodeId)
    (state : σ) :
    tree.walkWithin visit steps start state =
      (tree.unfoldWithin steps start).visits.foldlM visit state := by
  induction steps generalizing start state with
  | zero => cases start <;> rfl
  | succ steps induction =>
      cases start with
      | none => rfl
      | some id =>
          cases found : tree.node id with
          | error fault => simp [walkWithin, unfoldWithin, found]
          | ok node =>
              simp [walkWithin, unfoldWithin, found, induction]

theorem walk_eq_foldlM [Monad m] [LawfulMonad m] (tree : Tree)
    (visit : σ → Visit → m σ) (start : Option NodeId) (state : σ) :
    tree.walk visit start state =
      (tree.unfold start).visits.foldlM visit state :=
  tree.walkWithin_eq_foldlM visit (tree.size + 1) start state

def note (earlier : List Visit) : Visit → Except Fault (List Visit)
  | .missing fault => .error fault
  | visit => .ok (visit :: earlier)

def visits (tree : Tree) (start : Option NodeId) :
    Except Fault (List Visit) :=
  List.reverse <$> tree.walk note start []

end Tree

end CMinusAnalysis
