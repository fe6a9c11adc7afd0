import Mathlib.Data.List.Induction
import CMinusAnalysis.Proofs.Tree.Unfolding

namespace CMinusAnalysis

/-! Paths through a tree, told by their links alone. From one start the links of
a route say which nodes it goes through, and a walk comes along every route
once. So it comes to a node as often as there are paths to it. -/

def Route.links (route : Route) : List Link :=
  (route.map Prod.snd).reverse

@[simp] theorem Route.links_nil : Route.links [] = [] := rfl

@[simp] theorem Route.links_cons (step : Site × Link) (route : Route) :
    Route.links (step :: route) = Route.links route ++ [step.2] := by
  simp [Route.links]

theorem Route.not_suffix_self {step : Site × Link} {route : Route} :
    ¬ step :: route <:+ route := by
  intro suffix
  exact Nat.not_succ_le_self _ suffix.length_le

theorem Route.step_eq_of_suffix {first second : Site × Link}
    {route along : Route} (left : first :: route <:+ along)
    (right : second :: route <:+ along) : first = second := by
  obtain ⟨_, rfl⟩ := left
  obtain ⟨_, same⟩ := right
  exact (Route.step_eq_of_append_eq same).symm

namespace Tree

/-- Where a link leads. It leads nowhere from a handle without a node. -/
def follow? (tree : Tree) (here : Option NodeId) (link : Link) :
    Option NodeId := do
  let id ← here
  let node ← tree.nodes[id.index]?
  node.follow link

/-- Where the links lead from `start`, one after the other. -/
def target? (tree : Tree) (start : Option NodeId) (links : List Link) :
    Option NodeId :=
  links.foldl tree.follow? start

/-- The list holds every path from `start` to the node, once. -/
structure ListsPaths (tree : Tree) (start : Option NodeId) (id : NodeId)
    (paths : List (List Link)) : Prop where
  nodup : paths.Nodup
  mem_iff : ∀ links, links ∈ paths ↔ tree.target? start links = some id

/-- No two links from nodes that `start` leads to lead to one node. -/
def UnsharedFrom (tree : Tree) (start : Option NodeId) : Prop :=
  ∀ ⦃here there : Route⦄ ⦃left right : Site⦄ ⦃link turn : Link⦄ ⦃next : NodeId⦄,
    tree.Leads start ((left, link) :: here) next →
    tree.Leads start ((right, turn) :: there) next →
    left.id = right.id ∧ link = turn

variable {tree : Tree} {start : Option NodeId} {forest : Forest}

theorem ListsPaths.length_eq {id : NodeId} {left right : List (List Link)}
    (inLeft : tree.ListsPaths start id left)
    (inRight : tree.ListsPaths start id right) :
    left.length = right.length := by
  apply List.Perm.length_eq
  rw [List.perm_ext_iff_of_nodup inLeft.nodup inRight.nodup]
  exact fun links => (inLeft.mem_iff links).trans (inRight.mem_iff links).symm

theorem follow?_some {id : NodeId} {node : Node}
    (found : tree.node id = .ok node) (link : Link) :
    tree.follow? (some id) link = node.follow link := by
  simp [follow?, node_eq_ok_iff.mp found]

theorem target?_concat (start : Option NodeId) (links : List Link)
    (link : Link) :
    tree.target? start (links ++ [link]) =
      tree.follow? (tree.target? start links) link := by
  simp [target?]

theorem Leads.target? {route : Route} {id : NodeId}
    (leads : tree.Leads start route id) :
    tree.target? start route.links = some id := by
  induction leads with
  | start here => exact here
  | step _ found follows induction =>
      rw [Route.links_cons, target?_concat, induction, follow?_some found]
      exact follows

theorem exists_leads {links : List Link} {id : NodeId}
    (ends : tree.target? start links = some id) :
    ∃ route, tree.Leads start route id ∧ route.links = links := by
  induction links using List.reverseRecOn generalizing id with
  | nil => exact ⟨[], .start ends, rfl⟩
  | append_singleton links link induction =>
      rw [target?_concat] at ends
      obtain ⟨middle, reached, onward⟩ := Option.bind_eq_some_iff.mp ends
      obtain ⟨node, stored, follows⟩ := Option.bind_eq_some_iff.mp onward
      obtain ⟨route, leads, rfl⟩ := induction reached
      exact ⟨_, .step leads (node_eq_ok_iff.mpr stored) follows, by simp⟩

theorem Leads.route_unique {left right : Route} {id other : NodeId}
    (toLeft : tree.Leads start left id) (toRight : tree.Leads start right other)
    (same : left.links = right.links) : left = right := by
  induction toLeft generalizing right other with
  | start here =>
      cases toRight with
      | start there => rfl
      | step => simp at same
  | step leads found follows induction =>
      cases toRight with
      | start there => simp at same
      | step others opened turns =>
          rw [Route.links_cons, Route.links_cons] at same
          obtain ⟨before, last⟩ := List.append_inj' same rfl
          cases induction others before
          cases leads.unique others
          cases found.symm.trans opened
          cases last
          rfl

theorem Leads.leaves_start {origin id : NodeId} {route : Route}
    (leads : tree.Leads (some origin) route id) (onward : route ≠ []) :
    origin ∈ route.map fun step => step.1.id := by
  induction leads with
  | start here => exact absurd rfl onward
  | @step route id next node link leads _ _ induction =>
      rw [List.map_cons, List.mem_cons]
      cases leads with
      | start here =>
          cases here
          exact .inl rfl
      | step => exact .inr (induction (by simp))

theorem AcyclicFrom.eq_nil (acyclic : tree.AcyclicFrom start) {route : Route}
    {id : NodeId} (here : start = some id)
    (leads : tree.Leads start route id) : route = [] := by
  apply Decidable.byContradiction
  intro onward
  subst here
  exact acyclic leads (leads.leaves_start onward)

theorem UnsharedFrom.single (unshared : tree.UnsharedFrom start)
    (acyclic : tree.AcyclicFrom start) {left right : Route} {id : NodeId}
    (toLeft : tree.Leads start left id) (toRight : tree.Leads start right id) :
    left = right := by
  induction toLeft generalizing right with
  | start here => exact (acyclic.eq_nil here toRight).symm
  | step leads found follows induction =>
      have onward := Leads.step leads found follows
      cases toRight with
      | start there => exact acyclic.eq_nil there onward
      | step others opened turns =>
          obtain ⟨same, rfl⟩ := unshared onward (.step others opened turns)
          change _ = _ at same
          subst same
          cases found.symm.trans opened
          rw [induction others]

end Tree

def Visit.isAt (entering : Bool) (id : NodeId) : Visit → Bool
  | .enter site => entering && site.id = id
  | .leave site => !entering && site.id = id
  | .missing _ => false

namespace Forest

variable {forest : Forest} {route : Route}

theorem suffix_of_mem_stops {stop : Route × Visit}
    (member : stop ∈ forest.stops route) : route <:+ stop.1 := by
  induction forest generalizing route with
  | nil => cases member
  | missing fault =>
      cases List.mem_singleton.mp member
      exact List.suffix_rfl
  | cons site first second third rest inFirst inSecond inThird inRest =>
      simp only [stops, List.mem_cons, List.mem_append] at member
      rcases member with rfl | member | member | member | rfl | member
      · exact List.suffix_rfl
      · exact (List.suffix_cons _ _).trans (inFirst member)
      · exact (List.suffix_cons _ _).trans (inSecond member)
      · exact (List.suffix_cons _ _).trans (inThird member)
      · exact List.suffix_rfl
      · exact (List.suffix_cons _ _).trans (inRest member)

theorem pairwise_stops (forest : Forest) (route : Route) :
    (forest.stops route).Pairwise fun earlier later =>
      earlier.1 = later.1 →
        ∃ site, earlier.2 = .enter site ∧ later.2 = .leave site := by
  induction forest generalizing route with
  | nil => exact .nil
  | missing fault => exact List.pairwise_singleton _ _
  | cons site first second third rest inFirst inSecond inThird inRest =>
      -- No route to a part is the route to the node, or a route to another part.
      have away {part : Forest} {link : Link} {stop : Route × Visit}
          (member : stop ∈ part.stops ((site, link) :: route))
          (same : route = stop.1) : False := by
        have longer := suffix_of_mem_stops member
        rw [← same] at longer
        exact Route.not_suffix_self longer
      have apart {left right : Forest} {link turn : Link}
          (different : link ≠ turn) {here there : Route × Visit}
          (inLeft : here ∈ left.stops ((site, link) :: route))
          (inRight : there ∈ right.stops ((site, turn) :: route))
          (same : here.1 = there.1) : False := by
        have longer := suffix_of_mem_stops inLeft
        rw [same] at longer
        have equal :=
          Route.step_eq_of_suffix longer (suffix_of_mem_stops inRight)
        exact different (Prod.mk.inj equal).2
      simp only [stops, List.pairwise_cons, List.pairwise_append,
        List.mem_cons, List.mem_append]
      refine ⟨?_, inFirst _, ⟨inSecond _, ⟨inThird _, ⟨?_, inRest _⟩, ?_⟩, ?_⟩,
        ?_⟩
      · rintro stop (member | member | member | rfl | member) same
        · exact (away member same).elim
        · exact (away member same).elim
        · exact (away member same).elim
        · exact ⟨site, rfl, rfl⟩
        · exact (away member same).elim
      · exact fun stop member same => (away member same).elim
      · rintro stop inside other (rfl | member) same
        · exact (away inside same.symm).elim
        · exact (apart (by decide) inside member same).elim
      · rintro stop inside other (member | rfl | member) same
        · exact (apart (by decide) inside member same).elim
        · exact (away inside same.symm).elim
        · exact (apart (by decide) inside member same).elim
      · rintro stop inside other (member | member | rfl | member) same
        · exact (apart (by decide) inside member same).elim
        · exact (apart (by decide) inside member same).elim
        · exact (away inside same.symm).elim
        · exact (apart (by decide) inside member same).elim

theorem nodup_stops (forest : Forest) (route : Route) :
    (forest.stops route).Nodup := by
  apply (forest.pairwise_stops route).imp
  rintro earlier later turns rfl
  obtain ⟨site, entered, left⟩ := turns rfl
  cases entered.symm.trans left

def pathsTo (entering : Bool) (id : NodeId) (forest : Forest) :
    List (List Link) :=
  ((forest.stops []).filter fun stop => stop.2.isAt entering id).map
    fun stop => stop.1.links

theorem length_pathsTo (entering : Bool) (id : NodeId) (forest : Forest) :
    (forest.pathsTo entering id).length =
      forest.visits.countP (Visit.isAt entering id) := by
  rw [pathsTo, List.length_map, ← List.countP_eq_length_filter,
    ← forest.map_snd_stops [], List.countP_map]
  rfl

end Forest

namespace Tree

variable {tree : Tree} {start : Option NodeId} {forest : Forest}

theorem Unfolds.exists_isAt_iff (unfolds : tree.Unfolds start forest)
    (complete : forest.Complete) (entering : Bool) {route : Route}
    {id : NodeId} :
    (∃ visit, (route, visit) ∈ forest.stops [] ∧
        visit.isAt entering id = true) ↔ tree.Leads start route id := by
  constructor
  · rintro ⟨visit, stop, here⟩
    cases visit with
    | enter site =>
        simp only [Visit.isAt, Bool.and_eq_true, decide_eq_true_eq] at here
        rw [← here.2]
        exact (unfolds.leads_of_mem_stops (fun _ => .start) stop).1
    | leave site =>
        simp only [Visit.isAt, Bool.and_eq_true, decide_eq_true_eq] at here
        rw [← here.2]
        exact (unfolds.leads_of_mem_stops (fun _ => .start)
          (Forest.leave_mem_stops_iff.mp stop)).1
    | missing fault => cases here
  · intro leads
    obtain ⟨node, _, stop⟩ := unfolds.stop_of_leads complete leads
    cases entering with
    | true => exact ⟨_, stop, by simp [Visit.isAt]⟩
    | false =>
        exact ⟨_, Forest.leave_mem_stops_iff.mpr stop, by simp [Visit.isAt]⟩

theorem Unfolds.listsPaths (unfolds : tree.Unfolds start forest)
    (complete : forest.Complete) (entering : Bool) (id : NodeId) :
    tree.ListsPaths start id (forest.pathsTo entering id) where
  nodup := by
    rw [Forest.pathsTo, List.Nodup, List.pairwise_map, List.pairwise_filter]
    apply (forest.pairwise_stops []).imp_of_mem
    intro earlier later inEarlier inLater turns atEarlier atLater same
    have toEarlier := (unfolds.exists_isAt_iff complete entering).mp
      ⟨_, inEarlier, atEarlier⟩
    have toLater := (unfolds.exists_isAt_iff complete entering).mp
      ⟨_, inLater, atLater⟩
    obtain ⟨site, entered, left⟩ := turns (toEarlier.route_unique toLater same)
    rw [entered] at atEarlier
    rw [left] at atLater
    cases entering <;> simp [Visit.isAt] at atEarlier atLater
  mem_iff links := by
    simp only [Forest.pathsTo, List.mem_map, List.mem_filter]
    constructor
    · rintro ⟨stop, ⟨member, here⟩, rfl⟩
      exact ((unfolds.exists_isAt_iff complete entering).mp
        ⟨_, member, here⟩).target?
    · intro ends
      obtain ⟨route, leads, rfl⟩ := exists_leads ends
      obtain ⟨visit, member, here⟩ :=
        (unfolds.exists_isAt_iff complete entering).mpr leads
      exact ⟨_, ⟨member, here⟩, rfl⟩

end Tree

end CMinusAnalysis
