import Mathlib.Data.List.Nodup
import Mathlib.Data.List.Perm.Subperm
import CMinusAnalysis.Tree.Forest

namespace CMinusAnalysis

/-! Routes through a tree. A node may be reached on several routes; when no node
is, every route is short, because it never comes back to a node. -/

inductive Link where
  | first
  | second
  | third
  | sibling
  deriving DecidableEq, Repr

def Node.follow (node : Node) : Link → Option NodeId
  | .first => node.first
  | .second => node.second
  | .third => node.third
  | .sibling => node.sibling

/-- The links taken from a start, latest first, each with the node that it
leaves. -/
abbrev Route := List (Site × Link)

namespace Route

/-- The nodes that a route goes down from, innermost first. The link to a
sibling does not go down. -/
def ancestors (route : Route) : List Site :=
  (route.filter fun step => step.2 ≠ Link.sibling).map Prod.fst

@[simp] theorem ancestors_nil : ancestors [] = [] := rfl

@[simp] theorem ancestors_sibling (site : Site) (route : Route) :
    ancestors ((site, .sibling) :: route) = ancestors route := rfl

theorem ancestors_child (site : Site) {link : Link} (down : link ≠ .sibling)
    (route : Route) :
    ancestors ((site, link) :: route) = site :: ancestors route := by
  simp [ancestors, down]

theorem ne_of_longer (extension : Route) (step : Site × Link)
    (route : Route) : extension ++ step :: route ≠ route := by
  intro same
  have lengths := congrArg List.length same
  simp at lengths
  omega

theorem step_eq_of_append_eq {left right : Route} {first second : Site × Link}
    {route : Route}
    (same : left ++ first :: route = right ++ second :: route) :
    first = second :=
  (List.cons.inj (List.append_inj_right' same rfl)).1

end Route

namespace Tree

/-- The route leads from `start` to the handle, which may dangle. -/
inductive Leads (tree : Tree) (start : Option NodeId) : Route → NodeId → Prop
  | start {id : NodeId} (here : start = some id) : tree.Leads start [] id
  | step {route : Route} {id next : NodeId} {node : Node} {link : Link}
      (leads : tree.Leads start route id) (found : tree.node id = .ok node)
      (follows : node.follow link = some next) :
      tree.Leads start ((⟨id, node⟩, link) :: route) next

/-- No node is reached from the root on two routes. -/
def SinglePath (tree : Tree) : Prop :=
  ∀ ⦃id : NodeId⦄ ⦃left right : Route⦄, tree.Leads tree.root left id →
    tree.Leads tree.root right id → left = right

/-- No route from the root comes back to a node that it has left. -/
def Acyclic (tree : Tree) : Prop :=
  ∀ ⦃route : Route⦄ ⦃id : NodeId⦄, tree.Leads tree.root route id →
    id ∉ route.map fun step => step.1.id

def AcyclicFrom (tree : Tree) (start : Option NodeId) : Prop :=
  ∀ ⦃route : Route⦄ ⦃id : NodeId⦄, tree.Leads start route id →
    id ∉ route.map fun step => step.1.id

/-- No handle that is reached from the root dangles. -/
def InRange (tree : Tree) : Prop :=
  ∀ ⦃route : Route⦄ ⦃id : NodeId⦄, tree.Leads tree.root route id →
    id.index < tree.size

def InRangeFrom (tree : Tree) (start : Option NodeId) : Prop :=
  ∀ ⦃route : Route⦄ ⦃id : NodeId⦄, tree.Leads start route id →
    id.index < tree.size

variable {tree : Tree} {start : Option NodeId}

theorem node_lt {id : NodeId} {node : Node} (found : tree.node id = .ok node) :
    id.index < tree.size := by
  rw [node_eq_ok_iff] at found
  exact (Array.getElem?_eq_some_iff.mp found).1

theorem Leads.cut {front route : Route} {site : Site} {link : Link}
    {id : NodeId}
    (leads : tree.Leads start (front ++ (site, link) :: route) id) :
    tree.Leads start route site.id ∧ tree.node site.id = .ok site.node := by
  induction front generalizing id with
  | nil =>
      cases leads with
      | step leads found follows => exact ⟨leads, found⟩
  | cons step front induction =>
      cases leads with
      | step leads found follows => exact induction leads

theorem Leads.unique {route : Route} {left right : NodeId}
    (toLeft : tree.Leads start route left)
    (toRight : tree.Leads start route right) : left = right := by
  cases toLeft with
  | start here =>
      cases toRight with
      | start there => exact Option.some.inj (here.symm.trans there)
  | step _ _ follows =>
      cases toRight with
      | step _ _ again => exact Option.some.inj (follows.symm.trans again)

theorem not_leads_none {route : Route} {id : NodeId} :
    ¬ tree.Leads none route id := by
  intro leads
  generalize nowhere : (none : Option NodeId) = start at leads
  induction leads with
  | start here => simp [← nowhere] at here
  | step _ _ _ induction => exact induction

theorem Leads.append {start : Option NodeId} {id target : NodeId}
    {route along : Route} (leads : tree.Leads start route id)
    (onward : tree.Leads (some id) along target) :
    tree.Leads start (along ++ route) target := by
  induction onward with
  | start here =>
      cases here
      exact leads
  | step _ found follows induction => exact .step induction found follows

theorem Leads.after {id next target : NodeId} {node : Node} {link : Link}
    {route : Route} (found : tree.node id = .ok node)
    (follows : node.follow link = some next)
    (leads : tree.Leads (some next) route target) :
    tree.Leads (some id) (route ++ [(⟨id, node⟩, link)]) target := by
  induction leads with
  | start here =>
      cases here
      exact .step (.start rfl) found follows
  | step leads reached onward induction => exact .step induction reached onward

theorem acyclic_of_forward
    (forward : ∀ {id next : NodeId} {node : Node} {link : Link},
      tree.node id = .ok node → node.follow link = some next →
      id.index < next.index) : tree.AcyclicFrom start := by
  intro route id leads
  have earlier : ∀ step ∈ route, step.1.id.index < id.index := by
    induction leads with
    | start here => simp
    | step _ found follows induction =>
        have onward := forward found follows
        rw [List.forall_mem_cons]
        refine ⟨onward, fun step member => ?_⟩
        exact Nat.lt_trans (induction step member) onward
  intro repeated
  obtain ⟨step, member, same⟩ := List.mem_map.mp repeated
  have before := earlier step member
  rw [same] at before
  exact Nat.lt_irrefl _ before

theorem SinglePath.acyclic (single : tree.SinglePath) : tree.Acyclic := by
  intro route id leads repeated
  obtain ⟨step, member, same⟩ := List.mem_map.mp repeated
  obtain ⟨front, back, split⟩ := List.append_of_mem member
  rw [split] at leads
  have earlier := leads.cut.1
  rw [same] at earlier
  exact Route.ne_of_longer front step back (single leads earlier)

theorem Leads.nodup_ids (acyclic : tree.AcyclicFrom start) {route : Route}
    {id : NodeId} (leads : tree.Leads start route id) :
    (route.map fun step => step.1.id).Nodup := by
  induction leads with
  | start here => simp
  | step leads found follows induction =>
      rw [List.map_cons, List.nodup_cons]
      exact ⟨acyclic leads, induction⟩

theorem Leads.index_lt {route : Route} {id : NodeId}
    (leads : tree.Leads start route id) :
    ∀ step ∈ route, step.1.id.index < tree.size := by
  intro step member
  obtain ⟨front, back, split⟩ := List.append_of_mem member
  rw [split] at leads
  exact node_lt leads.cut.2

theorem length_le_size {ids : List NodeId} (distinct : ids.Nodup)
    (inside : ∀ id ∈ ids, id.index < tree.size) : ids.length ≤ tree.size := by
  have injective : Function.Injective NodeId.index := fun _ _ => NodeId.ext
  have subset : ids.map NodeId.index ⊆ List.range tree.size := by
    intro index member
    obtain ⟨id, listed, rfl⟩ := List.mem_map.mp member
    exact List.mem_range.mpr (inside id listed)
  simpa using
    (List.subperm_of_subset (distinct.map injective) subset).length_le

theorem Leads.length_le (acyclic : tree.AcyclicFrom start) {route : Route}
    {id : NodeId} (leads : tree.Leads start route id) :
    route.length ≤ tree.size := by
  have bound := length_le_size (leads.nodup_ids acyclic) (by
    intro id member
    obtain ⟨step, listed, rfl⟩ := List.mem_map.mp member
    exact leads.index_lt step listed)
  simpa using bound

end Tree

end CMinusAnalysis
