import Mathlib.Tactic.Tauto
import CMinusAnalysis.Proofs.Tree.Route

namespace CMinusAnalysis

/-! What the unfolding of a tree holds. Where no node is reached on two routes
the bound on its depth is not felt, every node stands in it at most once, and
every stop of a walk through it knows the route on which it was reached. -/

namespace Forest

def ids : Forest → List NodeId
  | .nil => []
  | .missing _ => []
  | .cons site first second third rest =>
      site.id :: (first.ids ++ (second.ids ++ (third.ids ++ rest.ids)))

def sites : Forest → List Site
  | .nil => []
  | .missing _ => []
  | .cons site first second third rest =>
      site :: (first.sites ++ (second.sites ++ (third.sites ++ rest.sites)))

/-- The handles of the outermost chain of siblings. -/
def chain : Forest → List NodeId
  | .nil => []
  | .missing _ => []
  | .cons site _ _ _ rest => site.id :: rest.chain

def Complete : Forest → Prop
  | .nil => True
  | .missing _ => False
  | .cons _ first second third rest =>
      first.Complete ∧ second.Complete ∧ third.Complete ∧ rest.Complete

/-- The visits of a walk, each with the route to its node. -/
def stops (route : Route) : Forest → List (Route × Visit)
  | .nil => []
  | .missing fault => [(route, .missing fault)]
  | .cons site first second third rest =>
      (route, .enter site) :: (first.stops ((site, .first) :: route) ++
        (second.stops ((site, .second) :: route) ++
          (third.stops ((site, .third) :: route) ++
            ((route, .leave site) :: rest.stops ((site, .sibling) :: route)))))

theorem map_snd_stops (forest : Forest) (route : Route) :
    (forest.stops route).map Prod.snd = forest.visits := by
  induction forest generalizing route with
  | nil => rfl
  | missing fault => rfl
  | cons site first second third rest inFirst inSecond inThird inRest =>
      simp [stops, inFirst, inSecond, inThird, inRest]

theorem leave_mem_stops_iff {forest : Forest} {route along : Route}
    {site : Site} :
    (along, Visit.leave site) ∈ forest.stops route ↔
      (along, Visit.enter site) ∈ forest.stops route := by
  induction forest generalizing route with
  | nil => simp [stops]
  | missing fault => simp [stops]
  | cons head first second third rest inFirst inSecond inThird inRest =>
      simp only [stops, List.mem_cons, List.mem_append, inFirst, inSecond,
        inThird, inRest, Prod.mk.injEq, Visit.leave.injEq, Visit.enter.injEq,
        reduceCtorEq, and_false, false_or]
      tauto

theorem mem_sites_of_mem_stops {forest : Forest} {route along : Route}
    {site : Site} (stop : (along, Visit.enter site) ∈ forest.stops route) :
    site ∈ forest.sites := by
  induction forest generalizing route with
  | nil => simp [stops] at stop
  | missing fault => simp [stops] at stop
  | cons head first second third rest inFirst inSecond inThird inRest =>
      simp only [stops, List.mem_cons, List.mem_append, Prod.mk.injEq,
        Visit.enter.injEq, reduceCtorEq, and_false, false_or] at stop
      simp only [sites, List.mem_cons, List.mem_append]
      rcases stop with ⟨_, rfl⟩ | here | here | here | here
      · exact .inl rfl
      · exact .inr (.inl (inFirst here))
      · exact .inr (.inr (.inl (inSecond here)))
      · exact .inr (.inr (.inr (.inl (inThird here))))
      · exact .inr (.inr (.inr (.inr (inRest here))))

theorem chain_sublist_ids (forest : Forest) :
    forest.chain.Sublist forest.ids := by
  induction forest with
  | nil => exact List.Sublist.slnil
  | missing fault => exact List.Sublist.slnil
  | cons site first second third rest _ _ _ inRest =>
      apply List.Sublist.cons_cons
      exact ((inRest.trans (List.sublist_append_right _ _)).trans
        (List.sublist_append_right _ _)).trans (List.sublist_append_right _ _)

/-- Every node stands in one part of a forest only. -/
structure Apart (site : Site) (first second third rest : Forest) : Prop where
  site : site.id ∉ first.ids ∧ site.id ∉ second.ids ∧ site.id ∉ third.ids ∧
    site.id ∉ rest.ids
  first : ∀ {key}, key ∈ first.ids → key ∉ second.ids ∧ key ∉ third.ids ∧
    key ∉ rest.ids
  second : ∀ {key}, key ∈ second.ids → key ∉ third.ids ∧ key ∉ rest.ids
  third : ∀ {key}, key ∈ third.ids → key ∉ rest.ids

theorem nodup_ids_cons_iff {site : Site} {first second third rest : Forest} :
    (Forest.cons site first second third rest).ids.Nodup ↔
      Apart site first second third rest ∧ first.ids.Nodup ∧
        second.ids.Nodup ∧ third.ids.Nodup ∧ rest.ids.Nodup := by
  simp only [ids, List.nodup_cons, List.nodup_append', List.mem_append, not_or,
    List.disjoint_left]
  constructor
  · rintro ⟨outside, nodupFirst, ⟨nodupSecond, ⟨nodupThird, nodupRest,
      third_apart⟩, second_apart⟩, first_apart⟩
    refine ⟨⟨outside, ?_, ?_, ?_⟩, nodupFirst, nodupSecond, nodupThird,
      nodupRest⟩
    · exact fun member => first_apart member
    · exact fun member => second_apart member
    · exact fun member => third_apart member
  · rintro ⟨apart, nodupFirst, nodupSecond, nodupThird, nodupRest⟩
    refine ⟨apart.site, nodupFirst, ⟨nodupSecond, ⟨nodupThird, nodupRest, ?_⟩,
      ?_⟩, ?_⟩
    · exact fun _ member => apart.third member
    · exact fun _ member => apart.second member
    · exact fun _ member => apart.first member

def entry? : Route × Visit → Option (Route × Site)
  | (route, .enter site) => some (route, site)
  | _ => none

theorem map_entries (forest : Forest) (route : Route) :
    ((forest.stops route).filterMap entry?).map (fun entry => entry.2.id) =
      forest.ids := by
  induction forest generalizing route with
  | nil => rfl
  | missing fault => rfl
  | cons site first second third rest inFirst inSecond inThird inRest =>
      simp [stops, entry?, ids, List.filterMap_cons, inFirst, inSecond,
        inThird, inRest]

theorem route_unique {forest : Forest} (distinct : forest.ids.Nodup)
    {route left right : Route} {here there : Site}
    (inLeft : (left, Visit.enter here) ∈ forest.stops route)
    (inRight : (right, Visit.enter there) ∈ forest.stops route)
    (same : here.id = there.id) : left = right := by
  have listed {along : Route} {site : Site}
      (stop : (along, Visit.enter site) ∈ forest.stops route) :
      (along, site) ∈ (forest.stops route).filterMap entry? :=
    List.mem_filterMap.mpr ⟨_, stop, rfl⟩
  rw [← forest.map_entries route] at distinct
  have equal := List.inj_on_of_nodup_map distinct (listed inLeft)
    (listed inRight) same
  exact (Prod.mk.inj equal).1

end Forest

namespace Tree

/-- The forest is what the links from `start` unfold to, however deep. -/
inductive Unfolds (tree : Tree) : Option NodeId → Forest → Prop
  | none : tree.Unfolds none .nil
  | missing {id : NodeId} {fault : Fault} (lost : tree.node id = .error fault) :
      tree.Unfolds (some id) (.missing fault)
  | node {id : NodeId} {node : Node} {first second third rest : Forest}
      (found : tree.node id = .ok node) (inFirst : tree.Unfolds node.first first)
      (inSecond : tree.Unfolds node.second second)
      (inThird : tree.Unfolds node.third third)
      (inRest : tree.Unfolds node.sibling rest) :
      tree.Unfolds (some id) (.cons ⟨id, node⟩ first second third rest)

variable {tree : Tree}

theorem unfoldWithin_unfolds {steps : Nat} {start : Option NodeId}
    (short : ∀ route id, tree.Leads start route id → route.length < steps) :
    tree.Unfolds start (tree.unfoldWithin steps start) := by
  induction steps generalizing start with
  | zero =>
      cases start with
      | none => exact .none
      | some id => exact absurd (short [] id (.start rfl)) (by simp)
  | succ steps induction =>
      cases start with
      | none => exact .none
      | some id =>
          cases found : tree.node id with
          | error fault =>
              simp only [unfoldWithin, found]
              exact .missing found
          | ok node =>
              simp only [unfoldWithin, found]
              have deeper (link : Link) :
                  tree.Unfolds (node.follow link)
                    (tree.unfoldWithin steps (node.follow link)) := by
                apply induction
                intro route target leads
                cases follows : node.follow link with
                | none =>
                    rw [follows] at leads
                    exact absurd leads not_leads_none
                | some next =>
                    rw [follows] at leads
                    have bound := short _ _ (leads.after found follows)
                    simp at bound
                    omega
              exact .node found (deeper .first) (deeper .second) (deeper .third)
                (deeper .sibling)

theorem Acyclic.unfolds_from (acyclic : tree.Acyclic) {start : Option NodeId}
    {route : Route}
    (reached : ∀ id, start = some id → tree.Leads tree.root route id) :
    tree.Unfolds start (tree.unfold start) := by
  apply unfoldWithin_unfolds
  intro along target leads
  cases start with
  | none => exact absurd leads not_leads_none
  | some id =>
      have bound := ((reached id rfl).append leads).length_le acyclic
      rw [List.length_append] at bound
      omega

theorem Acyclic.unfolds_slots (acyclic : tree.Acyclic) {route : Route}
    {site : Site} (leads : tree.Leads tree.root route site.id)
    (found : tree.node site.id = .ok site.node) :
    tree.Unfolds site.node.first (tree.unfold site.node.first) ∧
      tree.Unfolds site.node.second (tree.unfold site.node.second) := by
  have below (link : Link) : tree.Unfolds (site.node.follow link)
      (tree.unfold (site.node.follow link)) :=
    acyclic.unfolds_from fun _ => .step leads found
  exact ⟨below .first, below .second⟩

theorem Acyclic.unfolds (acyclic : tree.Acyclic) :
    tree.Unfolds tree.root tree.forest :=
  acyclic.unfolds_from fun _ => .start

theorem SinglePath.unfolds (single : tree.SinglePath) :
    tree.Unfolds tree.root tree.forest :=
  single.acyclic.unfolds

/-- The slots of every node lead to the forests that stand in them. -/
def Slots (tree : Tree) : Forest → Prop
  | .cons site first second third rest =>
      tree.Unfolds site.node.first first ∧
        tree.Unfolds site.node.second second ∧ tree.Slots first ∧
        tree.Slots second ∧ tree.Slots third ∧ tree.Slots rest
  | _ => True

namespace Unfolds

variable {origin start : Option NodeId} {forest : Forest} {route : Route}

theorem unique {other : Forest} (unfolds : tree.Unfolds start forest)
    (others : tree.Unfolds start other) : forest = other := by
  induction unfolds generalizing other with
  | none =>
      cases others
      rfl
  | missing lost =>
      cases others with
      | missing same =>
          cases lost.symm.trans same
          rfl
      | node found => cases lost.symm.trans found
  | node found _ _ _ _ inFirst inSecond inThird inRest =>
      cases others with
      | missing lost => cases found.symm.trans lost
      | node same first second third rest =>
          cases found.symm.trans same
          rw [inFirst first, inSecond second, inThird third, inRest rest]

theorem slots (unfolds : tree.Unfolds start forest) : tree.Slots forest := by
  induction unfolds with
  | none => exact trivial
  | missing lost => exact trivial
  | node _ ofFirst ofSecond _ _ inFirst inSecond inThird inRest =>
      exact ⟨ofFirst, ofSecond, inFirst, inSecond, inThird, inRest⟩

theorem node_of_mem_sites (unfolds : tree.Unfolds start forest) {site : Site}
    (member : site ∈ forest.sites) : tree.node site.id = .ok site.node := by
  induction unfolds with
  | none => cases member
  | missing lost => cases member
  | node found _ _ _ _ inFirst inSecond inThird inRest =>
      simp only [Forest.sites, List.mem_cons, List.mem_append] at member
      rcases member with rfl | member | member | member | member
      · exact found
      · exact inFirst member
      · exact inSecond member
      · exact inThird member
      · exact inRest member

theorem exists_extension (unfolds : tree.Unfolds start forest)
    (reached : ∀ id, start = some id → tree.Leads origin route id)
    {target : NodeId} (member : target ∈ forest.ids) :
    ∃ extension, tree.Leads origin (extension ++ route) target := by
  induction unfolds generalizing route with
  | none => cases member
  | missing lost => cases member
  | @node id node first second third rest found _ _ _ _ inFirst inSecond
      inThird inRest =>
      have onward (link : Link) : ∀ next, node.follow link = some next →
          tree.Leads origin ((⟨id, node⟩, link) :: route) next :=
        fun next follows => .step (reached id rfl) found follows
      have deeper {link : Link}
          (extended : ∃ extension, tree.Leads origin
            (extension ++ ((⟨id, node⟩, link) :: route)) target) :
          ∃ extension, tree.Leads origin (extension ++ route) target := by
        obtain ⟨extension, leads⟩ := extended
        exact ⟨extension ++ [(⟨id, node⟩, link)], by simpa using leads⟩
      simp only [Forest.ids, List.mem_cons, List.mem_append] at member
      rcases member with rfl | member | member | member | member
      · exact ⟨[], reached target rfl⟩
      · exact deeper (inFirst (onward .first) member)
      · exact deeper (inSecond (onward .second) member)
      · exact deeper (inThird (onward .third) member)
      · exact deeper (inRest (onward .sibling) member)

theorem nodup_ids (single : tree.SinglePath)
    (unfolds : tree.Unfolds start forest)
    (reached : ∀ id, start = some id → tree.Leads tree.root route id) :
    forest.ids.Nodup := by
  induction unfolds generalizing route with
  | none => exact List.nodup_nil
  | missing lost => exact List.nodup_nil
  | @node id node first second third rest found overFirst overSecond overThird
      overRest inFirst inSecond inThird inRest =>
      have onward (link : Link) : ∀ next, node.follow link = some next →
          tree.Leads tree.root ((⟨id, node⟩, link) :: route) next :=
        fun next follows => .step (reached id rfl) found follows
      have apart (link other : Link) {left right : Forest}
          (overLeft : tree.Unfolds (node.follow link) left)
          (overRight : tree.Unfolds (node.follow other) right)
          (different : link ≠ other) {target : NodeId}
          (inLeft : target ∈ left.ids) : target ∉ right.ids := by
        intro inRight
        obtain ⟨_, leadsLeft⟩ := overLeft.exists_extension (onward link) inLeft
        obtain ⟨_, leadsRight⟩ :=
          overRight.exists_extension (onward other) inRight
        have same := Route.step_eq_of_append_eq (single leadsLeft leadsRight)
        exact different (Prod.mk.inj same).2
      have below (link : Link) {part : Forest}
          (under : tree.Unfolds (node.follow link) part) : id ∉ part.ids := by
        intro inside
        obtain ⟨extension, leads⟩ := under.exists_extension (onward link) inside
        exact Route.ne_of_longer extension _ route
          (single leads (reached id rfl))
      refine Forest.nodup_ids_cons_iff.mpr ⟨⟨?_, ?_, ?_, ?_⟩,
        inFirst (onward .first), inSecond (onward .second),
        inThird (onward .third), inRest (onward .sibling)⟩
      · exact ⟨below .first overFirst, below .second overSecond,
          below .third overThird, below .sibling overRest⟩
      · intro target member
        exact ⟨apart .first .second overFirst overSecond (by decide) member,
          apart .first .third overFirst overThird (by decide) member,
          apart .first .sibling overFirst overRest (by decide) member⟩
      · intro target member
        exact ⟨apart .second .third overSecond overThird (by decide) member,
          apart .second .sibling overSecond overRest (by decide) member⟩
      · intro target member
        exact apart .third .sibling overThird overRest (by decide) member

theorem complete (unfolds : tree.Unfolds start forest)
    (reached : ∀ id, start = some id → tree.Leads origin route id)
    (inRange : tree.InRangeFrom origin) : forest.Complete := by
  induction unfolds generalizing route with
  | none => trivial
  | missing lost =>
      have inside := inRange (reached _ rfl)
      have outside := (node_eq_error_iff.mp lost).1
      omega
  | @node id node first second third rest found _ _ _ _ inFirst inSecond
      inThird inRest =>
      have onward (link : Link) : ∀ next, node.follow link = some next →
          tree.Leads origin ((⟨id, node⟩, link) :: route) next :=
        fun next follows => .step (reached id rfl) found follows
      exact ⟨inFirst (onward .first), inSecond (onward .second),
        inThird (onward .third), inRest (onward .sibling)⟩

theorem leads_of_mem_stops (unfolds : tree.Unfolds start forest)
    (reached : ∀ id, start = some id → tree.Leads origin route id)
    {along : Route} {site : Site}
    (stop : (along, Visit.enter site) ∈ forest.stops route) :
    tree.Leads origin along site.id ∧ tree.node site.id = .ok site.node := by
  induction unfolds generalizing route with
  | none => cases stop
  | missing lost => simp [Forest.stops] at stop
  | @node id node first second third rest found _ _ _ _ inFirst inSecond
      inThird inRest =>
      have onward (link : Link) : ∀ next, node.follow link = some next →
          tree.Leads origin ((⟨id, node⟩, link) :: route) next :=
        fun next follows => .step (reached id rfl) found follows
      simp only [Forest.stops, List.mem_cons, List.mem_append, Prod.mk.injEq,
        Visit.enter.injEq, reduceCtorEq, and_false, false_or] at stop
      rcases stop with ⟨rfl, rfl⟩ | stop | stop | stop | stop
      · exact ⟨reached id rfl, found⟩
      · exact inFirst (onward .first) stop
      · exact inSecond (onward .second) stop
      · exact inThird (onward .third) stop
      · exact inRest (onward .sibling) stop

theorem enter_mem_stops {id : NodeId} {node : Node}
    (unfolds : tree.Unfolds (some id) forest) (found : tree.node id = .ok node) :
    (route, Visit.enter ⟨id, node⟩) ∈ forest.stops route := by
  cases unfolds with
  | missing lost => simp [found] at lost
  | node opened =>
      cases opened.symm.trans found
      exact List.mem_cons_self

theorem stop_after (unfolds : tree.Unfolds start forest) {along : Route}
    {site : Site} {link : Link} {next : NodeId} {node : Node}
    (stop : (along, Visit.enter site) ∈ forest.stops route)
    (follows : site.node.follow link = some next)
    (found : tree.node next = .ok node) :
    ((site, link) :: along, Visit.enter ⟨next, node⟩) ∈
      forest.stops route := by
  induction unfolds generalizing route with
  | none => cases stop
  | missing lost => simp [Forest.stops] at stop
  | @node id parent first second third rest _ overFirst overSecond overThird
      overRest inFirst inSecond inThird inRest =>
      simp only [Forest.stops, List.mem_cons, List.mem_append, Prod.mk.injEq,
        Visit.enter.injEq, reduceCtorEq, and_false, false_or] at stop ⊢
      rcases stop with ⟨rfl, rfl⟩ | stop | stop | stop | stop
      · cases link with
        | first =>
            rw [show parent.first = some next from follows] at overFirst
            simp [overFirst.enter_mem_stops found]
        | second =>
            rw [show parent.second = some next from follows] at overSecond
            simp [overSecond.enter_mem_stops found]
        | third =>
            rw [show parent.third = some next from follows] at overThird
            simp [overThird.enter_mem_stops found]
        | sibling =>
            rw [show parent.sibling = some next from follows] at overRest
            simp [overRest.enter_mem_stops found]
      · simp [inFirst stop]
      · simp [inSecond stop]
      · simp [inThird stop]
      · simp [inRest stop]

theorem stop_of_leads (unfolds : tree.Unfolds start forest)
    (complete : forest.Complete) {along : Route} {id : NodeId}
    (leads : tree.Leads start along id) :
    ∃ node, tree.node id = .ok node ∧
      (along, Visit.enter ⟨id, node⟩) ∈ forest.stops [] := by
  have here {start : Option NodeId} {forest : Forest}
      (unfolds : tree.Unfolds start forest) (complete : forest.Complete)
      {id : NodeId} (known : start = some id) :
      ∃ node, tree.node id = .ok node := by
    cases unfolds with
    | none => cases known
    | missing lost => exact complete.elim
    | node found =>
        cases known
        exact ⟨_, found⟩
  have below {start : Option NodeId} {forest : Forest}
      (unfolds : tree.Unfolds start forest) (complete : forest.Complete)
      {route along : Route} {site : Site} {link : Link} {next : NodeId}
      (stop : (along, Visit.enter site) ∈ forest.stops route)
      (follows : site.node.follow link = some next) :
      ∃ node, tree.node next = .ok node := by
    induction unfolds generalizing route with
    | none => cases stop
    | missing lost => exact complete.elim
    | node _ overFirst overSecond overThird overRest inFirst inSecond inThird
        inRest =>
        obtain ⟨ofFirst, ofSecond, ofThird, ofRest⟩ := complete
        simp only [Forest.stops, List.mem_cons, List.mem_append,
          Prod.mk.injEq, Visit.enter.injEq, reduceCtorEq, and_false,
          false_or] at stop
        rcases stop with ⟨rfl, rfl⟩ | stop | stop | stop | stop
        · cases link with
          | first => exact here overFirst ofFirst follows
          | second => exact here overSecond ofSecond follows
          | third => exact here overThird ofThird follows
          | sibling => exact here overRest ofRest follows
        · exact inFirst ofFirst stop
        · exact inSecond ofSecond stop
        · exact inThird ofThird stop
        · exact inRest ofRest stop
  induction leads with
  | start known =>
      obtain ⟨node, found⟩ := here unfolds complete known
      rw [known] at unfolds
      exact ⟨node, found, unfolds.enter_mem_stops found⟩
  | step _ opened follows induction =>
      obtain ⟨node, same, stop⟩ := induction
      cases opened.symm.trans same
      obtain ⟨next, found⟩ := below unfolds complete stop follows
      exact ⟨next, found, unfolds.stop_after stop follows found⟩

theorem siblingsWithin_eq (unfolds : tree.Unfolds start forest)
    (complete : forest.Complete) {steps : Nat}
    (bound : forest.chain.length ≤ steps) :
    tree.siblingsWithin steps start = .ok forest.chain := by
  induction unfolds generalizing steps with
  | none => cases steps <;> rfl
  | missing lost => exact complete.elim
  | node found _ _ _ _ _ _ _ inRest =>
      cases steps with
      | zero => simp [Forest.chain] at bound
      | succ steps =>
          have shorter := inRest complete.2.2.2 (by simpa [Forest.chain] using bound)
          simp [siblingsWithin, found, shorter, Forest.chain, Bind.bind,
            Except.bind, Pure.pure, Except.pure]

theorem index_lt (unfolds : tree.Unfolds start forest) :
    ∀ id ∈ forest.ids, id.index < tree.size := by
  induction unfolds with
  | none => simp [Forest.ids]
  | missing lost => simp [Forest.ids]
  | node found _ _ _ _ inFirst inSecond inThird inRest =>
      simp only [Forest.ids, List.mem_cons, List.mem_append]
      rintro target (rfl | member | member | member | member)
      · exact node_lt found
      · exact inFirst target member
      · exact inSecond target member
      · exact inThird target member
      · exact inRest target member

theorem siblings_eq (unfolds : tree.Unfolds start forest)
    (complete : forest.Complete) (distinct : forest.ids.Nodup) :
    tree.siblings start = .ok forest.chain := by
  apply unfolds.siblingsWithin_eq complete
  have bound := length_le_size (distinct.sublist forest.chain_sublist_ids)
    fun id member =>
      unfolds.index_lt id (forest.chain_sublist_ids.subset member)
  omega

theorem length_chain_le (acyclic : tree.Acyclic)
    (unfolds : tree.Unfolds start forest)
    (reached : ∀ id, start = some id → tree.Leads tree.root route id) :
    forest.chain.length ≤ tree.size + 1 - route.length := by
  induction unfolds generalizing route with
  | none => exact Nat.zero_le _
  | missing lost => exact Nat.zero_le _
  | @node id node first second third rest found _ _ _ _ _ _ _ inRest =>
      have short := (reached id rfl).length_le acyclic
      have onward : ∀ next, node.sibling = some next →
          tree.Leads tree.root ((⟨id, node⟩, .sibling) :: route) next :=
        fun next follows => .step (reached id rfl) found follows
      have beside := inRest onward
      simp only [Forest.chain, List.length_cons] at beside ⊢
      omega

theorem siblings_of_acyclic (acyclic : tree.Acyclic)
    (unfolds : tree.Unfolds start forest) (complete : forest.Complete)
    (reached : ∀ id, start = some id → tree.Leads tree.root route id) :
    tree.siblings start = .ok forest.chain := by
  apply unfolds.siblingsWithin_eq complete
  have short := unfolds.length_chain_le acyclic reached
  omega

end Unfolds

theorem singlePath_of_unfolds {forest : Forest}
    (unfolds : tree.Unfolds tree.root forest) (complete : forest.Complete)
    (distinct : forest.ids.Nodup) : tree.SinglePath := by
  intro id left right toLeft toRight
  obtain ⟨_, _, inLeft⟩ := unfolds.stop_of_leads complete toLeft
  obtain ⟨_, _, inRight⟩ := unfolds.stop_of_leads complete toRight
  exact Forest.route_unique distinct inLeft inRight rfl

theorem inRange_of_unfolds {start : Option NodeId} {forest : Forest}
    (unfolds : tree.Unfolds start forest) (complete : forest.Complete) :
    tree.InRangeFrom start := by
  intro route id leads
  obtain ⟨_, found, _⟩ := unfolds.stop_of_leads complete leads
  exact node_lt found

def stops (tree : Tree) : List (Route × Visit) :=
  tree.forest.stops []

theorem Unfolds.mem_stops_iff (unfolds : tree.Unfolds tree.root tree.forest)
    {route : Route} {site : Site} :
    (route, Visit.enter site) ∈ tree.stops ↔
      tree.Leads tree.root route site.id ∧ tree.node site.id = .ok site.node := by
  constructor
  · intro stop
    exact unfolds.leads_of_mem_stops (fun _ => .start) stop
  · rintro ⟨leads, found⟩
    obtain ⟨id, node⟩ := site
    change tree.Leads tree.root route id at leads
    induction leads generalizing node with
    | start here =>
        rw [here] at unfolds
        exact unfolds.enter_mem_stops found
    | step _ opened follows induction =>
        exact unfolds.stop_after (induction _ opened) follows found

theorem mem_stops_iff (single : tree.SinglePath) {route : Route} {site : Site} :
    (route, Visit.enter site) ∈ tree.stops ↔
      tree.Leads tree.root route site.id ∧ tree.node site.id = .ok site.node :=
  single.unfolds.mem_stops_iff

theorem leads_of_visited (single : tree.SinglePath) (site : Site)
    (visited : Visit.enter site ∈ tree.stops.map Prod.snd) :
    ∃ route, tree.Leads tree.root route site.id ∧
      tree.node site.id = .ok site.node := by
  obtain ⟨⟨route, _⟩, stop, rfl⟩ := List.mem_map.mp visited
  exact ⟨route, (mem_stops_iff single).mp stop⟩

end Tree

end CMinusAnalysis
