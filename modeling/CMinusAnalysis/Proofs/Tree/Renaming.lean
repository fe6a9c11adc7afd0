import Mathlib.Data.List.Forall2
import CMinusAnalysis.Proofs.Tree.Shape
import CMinusAnalysis.Proofs.Tree.Trace

namespace CMinusAnalysis

def Declaration.renamed (rename : String → String) :
    Declaration → Declaration
  | .variable name spec => .variable (rename name) spec
  | .arrayVariable name spec length =>
      .arrayVariable (rename name) spec length
  | .function name spec => .function (rename name) spec

def Expression.renamed (rename : String → String) : Expression → Expression
  | .identifier name => .identifier (rename name)
  | .arrayIdentifier name => .arrayIdentifier (rename name)
  | .call name => .call (rename name)
  | .constant value => .constant value
  | .binary op => .binary op
  | .assign => .assign

def Parameter.renamed (rename : String → String) (parameter : Parameter) :
    Parameter :=
  { parameter with name := parameter.name.map rename }

def NodeKind.renamed (rename : String → String) : NodeKind → NodeKind
  | .declaration form => .declaration (form.renamed rename)
  | .statement form => .statement form
  | .expression form => .expression (form.renamed rename)
  | .parameter entry => .parameter (entry.renamed rename)

def Node.renamed (rename : String → String) (node : Node) : Node :=
  { node with kind := node.kind.renamed rename }

def Site.renamed (rename : String → String) (site : Site) : Site :=
  ⟨site.id, site.node.renamed rename⟩

def Visit.renamed (rename : String → String) : Visit → Visit
  | .enter site => .enter (site.renamed rename)
  | .leave site => .leave (site.renamed rename)
  | .missing fault => .missing fault

def Route.renamed (rename : String → String) (route : Route) : Route :=
  route.map fun step => (step.1.renamed rename, step.2)

def Forest.renamed (rename : String → String) : Forest → Forest
  | .nil => .nil
  | .missing fault => .missing fault
  | .cons site first second third rest =>
      .cons (site.renamed rename) (first.renamed rename)
        (second.renamed rename) (third.renamed rename) (rest.renamed rename)

def Tree.renamed (rename : String → String) (tree : Tree) : Tree :=
  { tree with nodes := tree.nodes.map (Node.renamed rename) }

variable {rename : String → String}

namespace NodeKind

@[simp] theorem isFunction_renamed (kind : NodeKind) :
    (kind.renamed rename).isFunction = kind.isFunction := by
  rcases kind with form | form | form | entry
  · cases form <;> rfl
  · rfl
  · cases form <;> rfl
  · rfl

@[simp] theorem isBlock_renamed (kind : NodeKind) :
    (kind.renamed rename).isBlock = kind.isBlock := by
  rcases kind with form | form | form | entry <;> rfl

@[simp] theorem name?_renamed (kind : NodeKind) :
    (kind.renamed rename).name? = kind.name?.map rename := by
  rcases kind with form | form | form | entry
  · cases form <;> rfl
  · rfl
  · cases form <;> rfl
  · rfl

end NodeKind

@[simp] theorem Node.name?_renamed (node : Node) :
    (node.renamed rename).name? = node.name?.map rename :=
  node.kind.name?_renamed

@[simp] theorem Node.follow_renamed (node : Node) (link : Link) :
    (node.renamed rename).follow link = node.follow link := by
  cases link <;> rfl

namespace Site

@[simp] theorem id_renamed (site : Site) :
    (site.renamed rename).id = site.id := rfl

@[simp] theorem kind_renamed (site : Site) :
    (site.renamed rename).node.kind = site.node.kind.renamed rename := rfl

@[simp] theorem line_renamed (site : Site) :
    (site.renamed rename).node.line = site.node.line := rfl

@[simp] theorem first_renamed (site : Site) :
    (site.renamed rename).node.first = site.node.first := rfl

@[simp] theorem second_renamed (site : Site) :
    (site.renamed rename).node.second = site.node.second := rfl

end Site

theorem Forest.stops_renamed (forest : Forest) (route : Route) :
    (forest.renamed rename).stops (route.renamed rename) =
      (forest.stops route).map fun stop =>
        (stop.1.renamed rename, stop.2.renamed rename) := by
  induction forest generalizing route with
  | nil => rfl
  | missing fault => rfl
  | cons site first second third rest inFirst inSecond inThird inRest =>
      have onward (link : Link) :
          (site.renamed rename, link) :: route.renamed rename =
            Route.renamed rename ((site, link) :: route) := rfl
      simp only [renamed, stops, onward, inFirst, inSecond, inThird, inRest,
        List.map_cons, List.map_append]
      rfl

namespace Tree

variable {tree : Tree}

@[simp] theorem size_renamed : (tree.renamed rename).size = tree.size :=
  Array.size_map

@[simp] theorem root_renamed : (tree.renamed rename).root = tree.root := rfl

theorem nodes_renamed (index : Nat) :
    (tree.renamed rename).nodes[index]? =
      tree.nodes[index]?.map (Node.renamed rename) :=
  Array.getElem?_map

theorem node_renamed (id : NodeId) :
    (tree.renamed rename).node id =
      (tree.node id).map (Node.renamed rename) := by
  cases found : tree.node id with
  | ok node =>
      rw [node_eq_ok_iff] at found
      simp [nodes_renamed, found, Except.map]
  | error fault =>
      simpa [Except.map] using node_eq_error_iff.mp found

theorem unfoldWithin_renamed (steps : Nat) (start : Option NodeId) :
    (tree.renamed rename).unfoldWithin steps start =
      (tree.unfoldWithin steps start).renamed rename := by
  induction steps generalizing start with
  | zero => cases start <;> rfl
  | succ steps induction =>
      cases start with
      | none => rfl
      | some id =>
          simp only [unfoldWithin, node_renamed]
          cases tree.node id with
          | error fault => rfl
          | ok node =>
              simp only [Except.map, Forest.renamed, ← induction]
              rfl

theorem forest_renamed :
    (tree.renamed rename).forest = tree.forest.renamed rename := by
  simp only [forest, unfold, size_renamed, unfoldWithin_renamed, root_renamed]

theorem stops_renamed :
    (tree.renamed rename).stops = tree.stops.map fun stop =>
      (stop.1.renamed rename, stop.2.renamed rename) := by
  rw [stops, forest_renamed]
  exact tree.forest.stops_renamed []

theorem siblings_renamed (start : Option NodeId) :
    (tree.renamed rename).siblings start = tree.siblings start := by
  have within (steps : Nat) (start : Option NodeId) :
      (tree.renamed rename).siblingsWithin steps start =
        tree.siblingsWithin steps start := by
    induction steps generalizing start with
    | zero => cases start <;> rfl
    | succ steps induction =>
        cases start with
        | none => rfl
        | some id =>
            simp only [siblingsWithin, node_renamed, induction]
            cases tree.node id <;> rfl
  rw [siblings, siblings, size_renamed, within]

theorem Leads.of_renamed {start : Option NodeId} {route : Route} {id : NodeId}
    (leads : (tree.renamed rename).Leads start route id) :
    ∃ original, tree.Leads start original id ∧
      route = original.renamed rename := by
  induction leads with
  | start here => exact ⟨[], .start here, rfl⟩
  | @step route id next node link _ found follows induction =>
      obtain ⟨original, leads, rfl⟩ := induction
      rw [node_renamed] at found
      cases there : tree.node id with
      | error fault =>
          rw [there] at found
          cases found
      | ok origin =>
          rw [there] at found
          cases found
          rw [Node.follow_renamed] at follows
          exact ⟨_, .step leads there follows, rfl⟩

theorem Acyclic.renamed (acyclic : tree.Acyclic) :
    (tree.renamed rename).Acyclic := by
  intro route id leads
  obtain ⟨original, reached, rfl⟩ := leads.of_renamed
  have fresh := acyclic reached
  rw [Route.renamed, List.map_map]
  exact fresh

theorem InRange.renamed (inRange : tree.InRange) :
    (tree.renamed rename).InRange := by
  intro route id leads
  obtain ⟨original, reached, rfl⟩ := leads.of_renamed
  rw [size_renamed]
  exact inRange reached

end Tree

theorem trace_simulation {left : σ → Visit → Except Fault σ}
    {right : τ → Visit → Except Fault τ} {related : σ → τ → Prop}
    (change : Route × Visit → Route × Visit) {stops : List (Route × Visit)}
    {state final : σ} {other : τ}
    (done : (stops.map Prod.snd).foldlM left state = .ok final)
    (onward : ∀ {state next : σ} {other : τ} {stop : Route × Visit},
      stop ∈ stops → related state other → left state stop.2 = .ok next →
      ∃ after, right other (change stop).2 = .ok after ∧ related next after)
    (initially : related state other) :
    ∃ after, ((stops.map change).map Prod.snd).foldlM right other =
        .ok after ∧ related final after ∧
      List.Forall₂ (fun here there => related here.1 there.1 ∧
        there.2 = change here.2) (trace left state stops)
        (trace right other (stops.map change)) := by
  induction stops generalizing state other with
  | nil =>
      cases done
      exact ⟨other, rfl, initially, .nil⟩
  | cons stop stops induction =>
      rw [List.map_cons, List.foldlM_cons] at done
      obtain ⟨next, made, done⟩ := bind_eq_ok_iff.mp done
      obtain ⟨image, answered, held⟩ :=
        onward List.mem_cons_self initially made
      obtain ⟨after, reached, ended, beside⟩ := induction done
        (fun member => onward (List.mem_cons_of_mem _ member)) held
      refine ⟨after, ?_, ended, ?_⟩
      · rw [List.map_cons, List.map_cons, List.foldlM_cons, answered]
        exact reached
      · simp only [List.map_cons, trace, made, answered]
        exact .cons ⟨initially, rfl⟩ beside

end CMinusAnalysis
