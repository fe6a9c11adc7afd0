import CMinusAnalysis.Proofs.Tree.Trace

namespace CMinusAnalysis

/-! The order in which a walk comes to the handles of a tree: to a node before
its children, and to its children before its siblings. A walk that fails at
nothing but handles without a node fails at the first of them, and without a
cycle it needs no more links than there are nodes. -/

/-- The handle that a walk follows to a visit. It follows none to leave a
node. -/
def Visit.handle? : Visit → Option NodeId
  | .enter site => some site.id
  | .leave _ => none
  | .missing fault => some ⟨fault.index⟩

namespace Forest

def handles (forest : Forest) : List NodeId :=
  forest.visits.filterMap Visit.handle?

@[simp] theorem handles_nil : Forest.nil.handles = [] := rfl

@[simp] theorem handles_missing (fault : Fault) :
    (Forest.missing fault).handles = [⟨fault.index⟩] := rfl

@[simp] theorem handles_cons (site : Site)
    (first second third rest : Forest) :
    (Forest.cons site first second third rest).handles =
      site.id :: (first.handles ++ (second.handles ++ (third.handles ++
        rest.handles))) := by
  simp [handles, Visit.handle?, List.filterMap_cons]

end Forest

namespace Tree

variable {tree : Tree} {start : Option NodeId} {forest : Forest}

/-- The first handle without a node that a walk through the forest comes to. -/
def dangling? (tree : Tree) (forest : Forest) : Option NodeId :=
  forest.handles.find? fun id => tree.size ≤ id.index

theorem Leads.first_link {id target : NodeId} {route : Route}
    (leads : tree.Leads (some id) route target) :
    target = id ∨ ∃ node link next along, tree.node id = .ok node ∧
      node.follow link = some next ∧ tree.Leads (some next) along target := by
  induction leads with
  | start here =>
      cases here
      exact .inl rfl
  | @step route reached next node link _ found follows induction =>
      rcases induction with rfl | ⟨node, link, after, along, opened, turn,
        onward⟩
      · exact .inr ⟨_, _, _, [], found, follows, .start rfl⟩
      · exact .inr ⟨_, _, _, _, opened, turn, .step onward found follows⟩

namespace Unfolds

theorem mem_handles_iff (unfolds : tree.Unfolds start forest)
    {target : NodeId} :
    target ∈ forest.handles ↔ ∃ route, tree.Leads start route target := by
  induction unfolds with
  | none => simp [not_leads_none]
  | @missing id fault lost =>
      obtain ⟨_, rfl⟩ := node_eq_error_iff.mp lost
      simp only [Forest.handles_missing, List.mem_singleton]
      constructor
      · rintro rfl
        exact ⟨[], .start rfl⟩
      · rintro ⟨route, leads⟩
        rcases leads.first_link with same | ⟨_, _, _, _, found, _⟩
        · exact same
        · cases lost.symm.trans found
  | @node id node first second third rest found _ _ _ _ inFirst inSecond
      inThird inRest =>
      have below (link : Link)
          (inside : ∃ route, tree.Leads (node.follow link) route target) :
          ∃ route, tree.Leads (some id) route target := by
        obtain ⟨route, leads⟩ := inside
        cases follows : node.follow link with
        | none =>
            rw [follows] at leads
            exact absurd leads not_leads_none
        | some next =>
            rw [follows] at leads
            exact ⟨_, leads.after found follows⟩
      simp only [Forest.handles_cons, List.mem_cons, List.mem_append, inFirst,
        inSecond, inThird, inRest]
      constructor
      · rintro (rfl | inside | inside | inside | inside)
        · exact ⟨[], .start rfl⟩
        · exact below .first inside
        · exact below .second inside
        · exact below .third inside
        · exact below .sibling inside
      · rintro ⟨route, leads⟩
        rcases leads.first_link with same | ⟨_, link, next, along, opened,
          follows, onward⟩
        · exact .inl same
        · cases opened.symm.trans found
          rw [← follows] at onward
          cases link with
          | first => exact .inr (.inl ⟨along, onward⟩)
          | second => exact .inr (.inr (.inl ⟨along, onward⟩))
          | third => exact .inr (.inr (.inr (.inl ⟨along, onward⟩)))
          | sibling => exact .inr (.inr (.inr (.inr ⟨along, onward⟩)))

theorem complete_of_dangling? (unfolds : tree.Unfolds start forest)
    (nowhere : tree.dangling? forest = .none) : forest.Complete := by
  have inside := List.find?_eq_none.mp nowhere
  clear nowhere
  induction unfolds with
  | none => trivial
  | missing lost =>
      obtain ⟨outside, rfl⟩ := node_eq_error_iff.mp lost
      simp at inside
      omega
  | node found _ _ _ _ inFirst inSecond inThird inRest =>
      simp only [Forest.handles_cons, List.forall_mem_cons,
        List.forall_mem_append] at inside
      obtain ⟨_, ofFirst, ofSecond, ofThird, ofRest⟩ := inside
      exact ⟨inFirst ofFirst, inSecond ofSecond, inThird ofThird,
        inRest ofRest⟩

theorem inRange_iff_dangling? (unfolds : tree.Unfolds tree.root forest) :
    tree.InRange ↔ tree.dangling? forest = .none := by
  constructor
  · intro inRange
    apply List.find?_eq_none.mpr
    intro id member
    obtain ⟨route, leads⟩ := unfolds.mem_handles_iff.mp member
    have inside := inRange leads
    simpa using inside
  · intro nowhere
    exact inRange_of_unfolds unfolds (unfolds.complete_of_dangling? nowhere)

theorem traverse_eq_error {step : σ → Visit → Except Fault σ}
    {enter leave : σ → Site → σ} {holds : σ → Prop} {state : σ} {id : NodeId}
    (unfolds : tree.Unfolds start forest)
    (steps : Forest.Steps step enter leave holds forest.sites)
    (fails : ∀ (state : σ) (fault : Fault),
      step state (.missing fault) = .error fault)
    (initially : holds state) (lost : tree.dangling? forest = some id) :
    forest.traverse step state = .error ⟨tree.size, id.index⟩ := by
  induction unfolds generalizing state with
  | none => cases lost
  | missing outside =>
      obtain ⟨_, rfl⟩ := node_eq_error_iff.mp outside
      have same := List.mem_of_find?_eq_some lost
      rw [Forest.handles_missing, List.mem_singleton] at same
      rw [same, Forest.traverse, Forest.visits_missing, List.foldlM_cons, fails]
      rfl
  | @node here node first second third rest found overFirst overSecond
      overThird overRest inFirst inSecond inThird inRest =>
      obtain ⟨ofFirst, ofSecond, ofThird, ofRest⟩ := steps.parts
      have listed := List.mem_cons_self (a := (⟨here, node⟩ : Site))
        (l := first.sites ++ (second.sites ++ (third.sites ++ rest.sites)))
      obtain ⟨entered, held⟩ := steps.entering listed initially
      have own : ¬ tree.size ≤ here.index := Nat.not_le_of_lt (node_lt found)
      simp only [dangling?, Forest.handles_cons, List.find?_cons, own,
        decide_false, List.find?_append, Option.or_eq_some_iff] at lost
      rw [Forest.traverse_cons, entered, ok_bind]
      -- The parts before the one that holds the handle are walked to the end.
      rcases lost with lost | ⟨nowhere, lost⟩
      · rw [inFirst ofFirst held lost]
        rfl
      have complete := overFirst.complete_of_dangling? nowhere
      obtain ⟨done, held⟩ := ofFirst.traverse complete held
      rw [done, ok_bind]
      rcases lost with lost | ⟨nowhere, lost⟩
      · rw [inSecond ofSecond held lost]
        rfl
      have complete := overSecond.complete_of_dangling? nowhere
      obtain ⟨done, held⟩ := ofSecond.traverse complete held
      rw [done, ok_bind]
      rcases lost with lost | ⟨nowhere, lost⟩
      · rw [inThird ofThird held lost]
        rfl
      have complete := overThird.complete_of_dangling? nowhere
      obtain ⟨done, held⟩ := ofThird.traverse complete held
      obtain ⟨left, held⟩ := steps.leaving listed held
      rw [done, ok_bind, left, ok_bind]
      exact inRest ofRest held lost

end Unfolds

namespace Acyclic

theorem unfoldWithin_eq (acyclic : tree.Acyclic) {steps : Nat}
    (enough : tree.size < steps) :
    tree.unfoldWithin steps tree.root = tree.forest := by
  have unfolds : tree.Unfolds tree.root (tree.unfoldWithin steps tree.root) :=
    unfoldWithin_unfolds fun _ _ leads =>
      Nat.lt_of_le_of_lt (leads.length_le acyclic) enough
  exact unfolds.unique acyclic.unfolds

theorem walkWithin_eq [Monad m] [LawfulMonad m] (acyclic : tree.Acyclic)
    {steps : Nat} (enough : tree.size < steps) (visit : σ → Visit → m σ)
    (state : σ) :
    tree.walkWithin visit steps tree.root state =
      tree.walk visit tree.root state := by
  rw [walkWithin_eq_foldlM, walk_eq_foldlM, acyclic.unfoldWithin_eq enough]
  rfl

theorem siblingsWithin_eq (acyclic : tree.Acyclic) (inRange : tree.InRange)
    {route : Route} {site : Site} (leads : tree.Leads tree.root route site.id)
    (found : tree.node site.id = .ok site.node) {steps : Nat}
    (enough : tree.size < steps) :
    tree.siblingsWithin steps site.node.first =
      tree.siblings site.node.first := by
  have onward : ∀ next, site.node.first = some next →
      tree.Leads tree.root ((site, .first) :: route) next :=
    fun _ follows => .step leads found follows
  have below := (acyclic.unfolds_slots leads found).1
  have complete := below.complete onward inRange
  have short := below.length_chain_le acyclic onward
  rw [below.siblingsWithin_eq complete (by omega),
    below.siblings_of_acyclic acyclic complete onward]

end Acyclic

end Tree

end CMinusAnalysis
