import CMinusAnalysis.Proofs.Outcome
import CMinusAnalysis.Proofs.Tree.Paths
import CMinusAnalysis.Tree.Walk

namespace CMinusAnalysis

/-- The visits of a walk from `start`, told by the links alone. -/
inductive Tree.Walks (tree : Tree) : Option NodeId → List Visit → Prop
  | none : tree.Walks none []
  | node {id : NodeId} {node : Node} {first second third rest : List Visit}
      (found : tree.node id = .ok node)
      (inFirst : tree.Walks node.first first)
      (inSecond : tree.Walks node.second second)
      (inThird : tree.Walks node.third third)
      (inRest : tree.Walks node.sibling rest) :
      tree.Walks (some id) (.enter ⟨id, node⟩ :: (first ++ (second ++ (third ++
        (.leave ⟨id, node⟩ :: rest)))))

/-- The nodes that are open after the visits, innermost first, if every node
that is left is the one that was entered last. -/
def openAfter : List Site → List Visit → Option (List Site)
  | opened, [] => some opened
  | opened, .enter site :: visits => openAfter (site :: opened) visits
  | last :: opened, .leave site :: visits =>
      if site = last then openAfter opened visits else none
  | [], .leave _ :: _ => none
  | _, .missing _ :: _ => none

/-- Among the stops, those below the node are just the ones between entering it
on the route and leaving it, and those beside it come after. -/
def Encloses (stops : List (Route × Visit)) (route : Route) (site : Site) :
    Prop :=
  ∃ before inside after,
    stops = before ++ (route, .enter site) ::
      (inside ++ (route, .leave site) :: after) ∧
    (∀ other ∈ stops, ∀ link, (site, link) :: route <:+ other.1 →
      if link = .sibling then other ∈ after else other ∈ inside) ∧
    ∀ other ∈ inside, ∃ link, link ≠ .sibling ∧
      (site, link) :: route <:+ other.1

theorem Encloses.within {part stops : List (Route × Visit)} {route : Route}
    {site : Site} (encloses : Encloses part route site)
    (stretch : part <:+: stops)
    (located : ∀ other ∈ stops, route <:+ other.1 → other ∈ part) :
    Encloses stops route site := by
  obtain ⟨before, inside, after, rfl, placed, below⟩ := encloses
  obtain ⟨front, back, rfl⟩ := stretch
  refine ⟨front ++ before, inside, after ++ back, by simp, ?_, below⟩
  intro other member link through
  have listed := located other member ((List.suffix_cons _ _).trans through)
  have place := placed other listed link through
  split at place
  · rw [if_pos ‹_›]
    exact List.mem_append_left _ place
  · rw [if_neg ‹_›]
    exact place

namespace Forest

variable {forest : Forest} {route : Route}

theorem not_missing_of_complete (complete : forest.Complete) {visit : Visit}
    (member : visit ∈ forest.visits) (fault : Fault) :
    visit ≠ .missing fault := by
  induction forest with
  | nil => cases member
  | missing lost => exact complete.elim
  | cons site first second third rest inFirst inSecond inThird inRest =>
      obtain ⟨ofFirst, ofSecond, ofThird, ofRest⟩ := complete
      simp only [visits_cons, List.mem_cons, List.mem_append] at member
      rcases member with rfl | member | member | member | rfl | member
      · exact Visit.noConfusion
      · exact inFirst ofFirst member
      · exact inSecond ofSecond member
      · exact inThird ofThird member
      · exact Visit.noConfusion
      · exact inRest ofRest member

theorem openAfter_visits (complete : forest.Complete) (opened : List Site)
    (later : List Visit) :
    openAfter opened (forest.visits ++ later) = openAfter opened later := by
  induction forest generalizing opened later with
  | nil => rfl
  | missing fault => exact complete.elim
  | cons site first second third rest inFirst inSecond inThird inRest =>
      obtain ⟨ofFirst, ofSecond, ofThird, ofRest⟩ := complete
      simp only [visits_cons, List.cons_append, List.append_assoc, openAfter]
      rw [inFirst ofFirst, inSecond ofSecond, inThird ofThird]
      simp only [openAfter, if_true]
      exact inRest ofRest opened later

/-- The part of a forest to which a link of its first node leads. -/
def part (first second third rest : Forest) : Link → Forest
  | .first => first
  | .second => second
  | .third => third
  | .sibling => rest

section

variable {site : Site} {first second third rest : Forest}

theorem mem_stops_cons_iff {stop : Route × Visit} :
    stop ∈ (Forest.cons site first second third rest).stops route ↔
      stop = (route, .enter site) ∨ stop = (route, .leave site) ∨
        ∃ link, stop ∈
          (part first second third rest link).stops ((site, link) :: route) := by
  have links (holds : Link → Prop) : (∃ link, holds link) ↔
      holds .first ∨ holds .second ∨ holds .third ∨ holds .sibling := by
    constructor
    · rintro ⟨_ | _ | _ | _, held⟩ <;> simp [held]
    · rintro (held | held | held | held) <;> exact ⟨_, held⟩
  simp only [stops, links, part, List.mem_cons, List.mem_append]
  tauto

theorem part_stretches (link : Link) :
    (part first second third rest link).stops ((site, link) :: route) <:+:
      (Forest.cons site first second third rest).stops route := by
  have after (front back : List (Route × Visit)) :
      back <:+ (route, Visit.enter site) :: (front ++ back) :=
    (List.suffix_append _ _).trans (List.suffix_cons _ _)
  cases link with
  | first => exact ⟨[_], _, rfl⟩
  | second => exact (List.prefix_append _ _).isInfix.trans (after _ _).isInfix
  | third =>
      exact (List.prefix_append _ _).isInfix.trans
        ((List.suffix_append _ _).trans (after _ _)).isInfix
  | sibling =>
      exact ((List.suffix_cons _ _).trans ((List.suffix_append _ _).trans
        ((List.suffix_append _ _).trans (after _ _)))).isInfix

theorem mem_part_of_suffix {link : Link} {stop : Route × Visit}
    (member : stop ∈ (Forest.cons site first second third rest).stops route)
    (through : (site, link) :: route <:+ stop.1) :
    stop ∈ (part first second third rest link).stops
      ((site, link) :: route) := by
  rcases mem_stops_cons_iff.mp member with rfl | rfl | ⟨turn, inside⟩
  · exact absurd through Route.not_suffix_self
  · exact absurd through Route.not_suffix_self
  · cases Route.step_eq_of_suffix through (suffix_of_mem_stops inside)
    exact inside

theorem encloses_here :
    Encloses ((Forest.cons site first second third rest).stops route) route
      site := by
  refine ⟨[], first.stops ((site, .first) :: route) ++
      (second.stops ((site, .second) :: route) ++
        third.stops ((site, .third) :: route)),
    rest.stops ((site, .sibling) :: route), by simp [stops], ?_, ?_⟩
  · intro other member link through
    have inside := mem_part_of_suffix member through
    cases link <;> simp_all [part]
  · intro other member
    simp only [List.mem_append] at member
    rcases member with member | member | member
    · exact ⟨.first, by decide, suffix_of_mem_stops member⟩
    · exact ⟨.second, by decide, suffix_of_mem_stops member⟩
    · exact ⟨.third, by decide, suffix_of_mem_stops member⟩

end

theorem encloses_of_mem_stops {along : Route} {site : Site}
    (stop : (along, Visit.enter site) ∈ forest.stops route) :
    Encloses (forest.stops route) along site := by
  induction forest generalizing route with
  | nil => cases stop
  | missing fault => simp [stops] at stop
  | cons head first second third rest inFirst inSecond inThird inRest =>
      rcases mem_stops_cons_iff.mp stop with here | here | ⟨link, inside⟩
      · cases here
        exact encloses_here
      · cases here
      · have encloses : Encloses ((part first second third rest link).stops
            ((head, link) :: route)) along site := by
          cases link with
          | first => exact inFirst inside
          | second => exact inSecond inside
          | third => exact inThird inside
          | sibling => exact inRest inside
        refine encloses.within (part_stretches link) ?_
        intro other member passes
        exact mem_part_of_suffix member
          ((suffix_of_mem_stops inside).trans passes)

end Forest

namespace Tree

variable {tree : Tree} {start : Option NodeId} {forest : Forest}

theorem Walks.unique {visits others : List Visit}
    (walks : tree.Walks start visits) (again : tree.Walks start others) :
    visits = others := by
  induction walks generalizing others with
  | none =>
      cases again
      rfl
  | node found _ _ _ _ inFirst inSecond inThird inRest =>
      cases again with
      | node same first second third rest =>
          cases found.symm.trans same
          rw [inFirst first, inSecond second, inThird third, inRest rest]

theorem Unfolds.walks (unfolds : tree.Unfolds start forest)
    (complete : forest.Complete) : tree.Walks start forest.visits := by
  induction unfolds with
  | none => exact .none
  | missing lost => exact complete.elim
  | node found _ _ _ _ inFirst inSecond inThird inRest =>
      obtain ⟨ofFirst, ofSecond, ofThird, ofRest⟩ := complete
      exact .node found (inFirst ofFirst) (inSecond ofSecond)
        (inThird ofThird) (inRest ofRest)

theorem foldlM_note {visits : List Visit}
    (present : ∀ visit ∈ visits, ∀ fault, visit ≠ .missing fault)
    (earlier : List Visit) :
    visits.foldlM note earlier = .ok (visits.reverse ++ earlier) := by
  induction visits generalizing earlier with
  | nil => rfl
  | cons visit visits induction =>
      rw [List.forall_mem_cons] at present
      have noted : note earlier visit = .ok (visit :: earlier) := by
        cases visit with
        | missing fault => exact absurd rfl (present.1 fault)
        | _ => rfl
      rw [List.foldlM_cons, noted, ok_bind, induction present.2]
      simp

theorem visits_eq_ok (complete : (tree.unfold start).Complete) :
    tree.visits start = .ok (tree.unfold start).visits := by
  rw [visits, walk_eq_foldlM,
    foldlM_note fun _ => Forest.not_missing_of_complete complete]
  simp

theorem AcyclicFrom.unfolds (acyclic : tree.AcyclicFrom start) {steps : Nat}
    (enough : tree.size < steps) :
    tree.Unfolds start (tree.unfoldWithin steps start) :=
  unfoldWithin_unfolds fun _ _ leads =>
    Nat.lt_of_le_of_lt (leads.length_le acyclic) enough

theorem Unfolds.exists_leads_of_mem_stops (unfolds : tree.Unfolds start forest)
    (complete : forest.Complete) {stop : Route × Visit}
    (member : stop ∈ forest.stops []) :
    ∃ id, tree.Leads start stop.1 id := by
  obtain ⟨route, visit⟩ := stop
  cases visit with
  | enter site =>
      exact ⟨_, (unfolds.leads_of_mem_stops (fun _ => .start) member).1⟩
  | leave site =>
      exact ⟨_, (unfolds.leads_of_mem_stops (fun _ => .start)
        (Forest.leave_mem_stops_iff.mp member)).1⟩
  | missing fault =>
      have visited : Visit.missing fault ∈ forest.visits := by
        rw [← forest.map_snd_stops []]
        exact List.mem_map_of_mem member
      exact absurd rfl (Forest.not_missing_of_complete complete visited fault)

def stopsFrom (tree : Tree) (start : Option NodeId) : List (Route × Visit) :=
  (tree.unfold start).stops []

theorem map_snd_stopsFrom (tree : Tree) (start : Option NodeId) :
    (tree.stopsFrom start).map Prod.snd = (tree.unfold start).visits :=
  Forest.map_snd_stops _ _

theorem Unfolds.countP_eq (unfolds : tree.Unfolds start forest)
    (complete : forest.Complete) (entering : Bool) {id : NodeId}
    {paths : List (List Link)} (lists : tree.ListsPaths start id paths) :
    forest.visits.countP (Visit.isAt entering id) = paths.length := by
  rw [← forest.length_pathsTo]
  exact (unfolds.listsPaths complete entering id).length_eq lists

theorem Unfolds.mem_stops_nil_iff (unfolds : tree.Unfolds start forest)
    (complete : forest.Complete) {route : Route} {site : Site} :
    (route, Visit.enter site) ∈ forest.stops [] ↔
      tree.Leads start route site.id ∧ tree.node site.id = .ok site.node := by
  constructor
  · exact unfolds.leads_of_mem_stops fun _ => .start
  · rintro ⟨leads, found⟩
    obtain ⟨node, again, stop⟩ := unfolds.stop_of_leads complete leads
    cases found.symm.trans again
    exact stop

theorem ListsPaths.nil {id : NodeId}
    (apart : ∀ links, tree.target? start links ≠ some id) :
    tree.ListsPaths start id [] :=
  ⟨.nil, fun links => by simp [apart links]⟩

theorem UnsharedFrom.listsPaths (unshared : tree.UnsharedFrom start)
    (acyclic : tree.AcyclicFrom start) {id : NodeId} {links : List Link}
    (ends : tree.target? start links = some id) :
    tree.ListsPaths start id [links] where
  nodup := List.nodup_singleton _
  mem_iff others := by
    rw [List.mem_singleton]
    constructor
    · rintro rfl
      exact ends
    · intro again
      obtain ⟨left, toLeft, rfl⟩ := exists_leads again
      obtain ⟨right, toRight, rfl⟩ := exists_leads ends
      rw [unshared.single acyclic toLeft toRight]

end Tree

/-- From a start without cycles and dangling handles, a walk makes the visits
that the links unfold to in order, for any visitor and whatever the bound on its
links. It leaves the node that it entered last, and it enters and leaves a node
as often as paths lead there: never without a path, and once if no node is
shared. On every route its stops below a node lie between entering the node and
leaving it, and those beside the node come after. -/
theorem walks_unfold_the_links.{u, v} {tree : Tree} {start : Option NodeId}
    (acyclic : tree.AcyclicFrom start) (inRange : tree.InRangeFrom start) :
    let stops := tree.stopsFrom start
    let visits := stops.map Prod.snd
    tree.visits start = .ok visits ∧
    tree.Walks start visits ∧
    (∀ others, tree.Walks start others → others = visits) ∧
    (∀ {m : Type u → Type v} [Monad m] [LawfulMonad m] {σ : Type u}
        (visit : σ → Visit → m σ) (steps : Nat) (state : σ),
      tree.size < steps →
      tree.walkWithin visit steps start state = visits.foldlM visit state) ∧
    openAfter [] visits = some [] ∧
    (∀ id : NodeId, ∃ paths, tree.ListsPaths start id paths ∧
      ∀ entering, visits.countP (Visit.isAt entering id) = paths.length) ∧
    (∀ (id : NodeId) (entering : Bool),
      (∀ links, tree.target? start links ≠ some id) →
      visits.countP (Visit.isAt entering id) = 0) ∧
    (tree.UnsharedFrom start → ∀ (id : NodeId) (entering : Bool) links,
      tree.target? start links = some id →
      visits.countP (Visit.isAt entering id) = 1) ∧
    stops.Nodup ∧
    ∀ (route : Route) (site : Site),
      ((route, Visit.enter site) ∈ stops ↔
        tree.Leads start route site.id ∧
          tree.node site.id = .ok site.node) ∧
      ((route, Visit.enter site) ∈ stops → Encloses stops route site) ∧
      ∀ stop ∈ stops, ∀ link, (site, link) :: route <:+ stop.1 →
        (route, Visit.enter site) ∈ stops := by
  intro stops visits
  have unfolds := acyclic.unfolds (Nat.lt_succ_self tree.size)
  have complete := unfolds.complete (fun _ => .start) inRange
  have same : visits = (tree.unfold start).visits :=
    tree.map_snd_stopsFrom start
  have walks := unfolds.walks complete
  have listed (entering : Bool) (id : NodeId) :=
    unfolds.listsPaths complete entering id
  rw [same]
  refine ⟨Tree.visits_eq_ok complete, walks, fun _ others =>
    others.unique walks, ?_, ?_, ?_, ?_, ?_, Forest.nodup_stops _ _, ?_⟩
  · intro m _ _ σ visit steps state enough
    rw [Tree.walkWithin_eq_foldlM,
      (acyclic.unfolds enough).unique unfolds]
    rfl
  · have balanced := Forest.openAfter_visits complete [] []
    rwa [List.append_nil] at balanced
  · intro id
    exact ⟨_, listed true id, fun entering =>
      unfolds.countP_eq complete entering (listed true id)⟩
  · intro id entering apart
    exact unfolds.countP_eq complete entering (.nil apart)
  · intro unshared id entering links ends
    exact unfolds.countP_eq complete entering
      (unshared.listsPaths acyclic ends)
  · intro route site
    refine ⟨unfolds.mem_stops_nil_iff complete, Forest.encloses_of_mem_stops,
      ?_⟩
    rintro stop member link ⟨front, through⟩
    obtain ⟨id, leads⟩ := unfolds.exists_leads_of_mem_stops complete member
    rw [← through] at leads
    exact (unfolds.mem_stops_nil_iff complete).mpr leads.cut

/-- An assignment and the statement after it, with one operand among them,
which has one operand twice. -/
def sharedOperands : Tree where
  nodes := #[
    { kind := .statement .assign, line := 1, first := some ⟨2⟩,
      second := some ⟨2⟩, sibling := some ⟨1⟩ },
    { kind := .statement .write, line := 2, first := some ⟨2⟩ },
    { kind := .expression (.binary .add), line := 3, first := some ⟨3⟩,
      second := some ⟨3⟩ },
    { kind := .expression (.constant 7), line := 4 }]

theorem sharedOperands_acyclic (start : Option NodeId) :
    sharedOperands.AcyclicFrom start := by
  apply Tree.acyclic_of_forward
  intro id next node link found follows
  rcases id with ⟨_ | _ | _ | _ | _⟩ <;> cases found <;> cases link <;>
    cases follows <;> decide

theorem sharedOperands_inRange :
    sharedOperands.InRangeFrom (some ⟨0⟩) :=
  Tree.inRange_of_unfolds
    ((sharedOperands_acyclic _).unfolds (Nat.lt_succ_self _))
    (by repeat constructor)

theorem walks_through_shared_operands :
    sharedOperands.AcyclicFrom (some ⟨0⟩) ∧
      sharedOperands.InRangeFrom (some ⟨0⟩) ∧
      ∃ paths, sharedOperands.ListsPaths (some ⟨0⟩) ⟨3⟩ paths ∧
        paths.length = 6 := by
  obtain ⟨_, _, _, _, _, counts, _⟩ := walks_unfold_the_links.{0, 0}
    (sharedOperands_acyclic (some ⟨0⟩)) sharedOperands_inRange
  obtain ⟨paths, lists, count⟩ := counts ⟨3⟩
  refine ⟨sharedOperands_acyclic _, sharedOperands_inRange, paths, lists, ?_⟩
  rw [← count true]
  decide +kernel

end CMinusAnalysis
