import CMinusAnalysis.Proofs.Analysis.Compositionality

namespace CMinusAnalysis

/-! An accepted program is fully typed. A type can be missing because a name was
not declared, because a call is to no function or because the target of an
assignment has none; the first two are reported, and the third goes back to
them. -/

namespace NodeKind

def carriesType : NodeKind → Bool
  | .statement _ => false
  | .parameter entry => entry.name.isSome
  | .expression _ | .declaration _ => true

def isExpression : NodeKind → Bool
  | .expression _ => true
  | _ => false

theorem carriesType_of_isExpression {kind : NodeKind}
    (fits : kind.isExpression = true) : kind.carriesType = true := by
  unfold isExpression at fits
  split at fits
  · rfl
  · cases fits

end NodeKind

namespace Forest

def startsExpression : Forest → Bool
  | .cons site _ _ _ _ => site.node.kind.isExpression
  | _ => false

/-- Every assignment that is an expression has an expression in its first
slot. -/
def Targeted : Forest → Prop
  | .cons site first second third rest =>
      (site.node.kind = .expression .assign →
          first.startsExpression = true) ∧
        first.Targeted ∧ second.Targeted ∧ third.Targeted ∧ rest.Targeted
  | _ => True

instance decidableTargeted : (forest : Forest) → Decidable forest.Targeted
  | .nil => .isTrue trivial
  | .missing _ => .isTrue trivial
  | .cons site first second third rest =>
      have := decidableTargeted first
      have := decidableTargeted second
      have := decidableTargeted third
      have := decidableTargeted rest
      inferInstanceAs (Decidable
        ((site.node.kind = .expression .assign →
            first.startsExpression = true) ∧
          first.Targeted ∧ second.Targeted ∧ third.Targeted ∧ rest.Targeted))

end Forest

namespace Checking

/-- The pass is before a part of a program in which nothing is wrong. -/
structure Flawless (tree : Tree) (declared : Analysis) (final : Facts)
    (state : Checking) (route : Route) (forest : Forest) : Prop
    extends Prepared tree declared final state route forest where
  resolved : ∀ id, declared.facts.unresolved.contains id = false
  targeted : forest.Targeted
  silent : declared.findings route forest = []

namespace Flawless

variable {tree : Tree} {declared : Analysis} {final : Facts}
  {state : Checking} {route : Route} {site : Site}
  {forest first second third rest : Forest}

theorem onward (flawless : Flawless tree declared final state route
      (.cons site first second third rest)) :
    let inside := state.entered declared.table site
    let afterFirst := inside.walked tree declared.table first
    let afterSecond := afterFirst.walked tree declared.table second
    let afterThird := afterSecond.walked tree declared.table third
    Flawless tree declared final inside ((site, .first) :: route) first ∧
      Flawless tree declared final afterFirst ((site, .second) :: route)
        second ∧
      Flawless tree declared final afterSecond ((site, .third) :: route)
        third ∧
      Flawless tree declared final (afterThird.left tree declared.table site)
        ((site, .sibling) :: route) rest := by
  obtain ⟨toFirst, toSecond, toThird, toRest⟩ := flawless.toPrepared.onward
  obtain ⟨_, targeted1, targeted2, targeted3, targeted4⟩ := flawless.targeted
  have silent := flawless.silent
  simp only [Analysis.findings, List.append_eq_nil_iff] at silent
  obtain ⟨silent1, silent2, silent3, _, silent4⟩ := silent
  have resolved := flawless.resolved
  exact ⟨⟨toFirst, resolved, targeted1, silent1⟩,
    ⟨toSecond, resolved, targeted2, silent2⟩,
    ⟨toThird, resolved, targeted3, silent3⟩,
    ⟨toRest, resolved, targeted4, silent4⟩⟩

theorem of_reaches {part : Forest} {found : Checking} {along : Route}
    (flawless : Flawless tree declared final state route forest)
    (reaches : Forest.Reaches (entered declared.table)
      (left tree declared.table) state route forest found along part) :
    Flawless tree declared final found along part :=
  reaches.invariant (Flawless tree declared final) onward flawless

theorem typeFrom?_isSome (flawless : Flawless tree declared final state route
      (.cons site first second third rest)) {name : String}
    (use : site.node.kind.use? = some name) :
    (declared.table.typeFrom? state.current name).isSome = true := by
  rcases flawless.placed.grounded.uses List.mem_cons_self use with marked |
    ⟨scope, around, resolved⟩
  · rw [flawless.resolved] at marked
    cases marked
  · cases flawless.placed.around.symm.trans around
    rw [SymbolTable.typeFrom?_eq flawless.sound.coherent flawless.sound.current]
    obtain ⟨symbol, hit⟩ := Option.isSome_iff_exists.mp resolved
    obtain ⟨entry, stored⟩ := SymbolTable.exists_of_resolve hit
    simp [hit, SymbolTable.typeOf?, stored]

theorem function?_isSome (flawless : Flawless tree declared final state route
      (.cons site first second third rest)) {name : String}
    (kind : site.node.kind = .expression (.call name)) :
    (declared.function? name).isSome = true := by
  have silent := flawless.silent
  simp only [Analysis.findings, List.append_eq_nil_iff] at silent
  have called := silent.2.2.2.1
  simp only [Analysis.verdict, kind, complaints_eq_nil, Analysis.callVerdict,
    flawless.resolved, Bool.false_eq_true, if_false] at called
  rw [Analysis.function?_eq (Nat.zero_lt_of_lt flawless.sound.current)]
  cases callee : callee? declared.table name with
  | none => simp [callee] at called
  | some function =>
      cases isFunction : function.isFunction with
      | false => simp [callee, isFunction] at called
      | true => simp [Option.filter, isFunction]

theorem typeAt_isSome (flawless : Flawless tree declared final state route
      (.cons site first second third rest)) {target : Option Ty}
    (typed : site.node.kind = .expression .assign → target.isSome = true) :
    (declared.typeAt route site target).isSome =
      site.node.kind.carriesType := by
  rcases kind : site.node.kind with declaration | statement | expression |
    parameter
  · cases declaration <;> simp [Analysis.typeAt, kind, NodeKind.carriesType]
  · simp [Analysis.typeAt, kind, NodeKind.carriesType]
  · cases expression with
    | identifier name =>
        have known := flawless.typeFrom?_isSome (by rw [kind]; rfl)
        simp [Analysis.typeAt, kind, NodeKind.carriesType, flawless.resolved,
          flawless.placed.around, known]
    | call name =>
        have called := flawless.function?_isSome kind
        simp [Analysis.typeAt, kind, NodeKind.carriesType, flawless.resolved,
          called]
    | assign => simp [Analysis.typeAt, kind, NodeKind.carriesType, typed kind]
    | _ => simp [Analysis.typeAt, kind, NodeKind.carriesType]
  · simp [Analysis.typeAt, kind, NodeKind.carriesType]

theorem infer_isSome (flawless : Flawless tree declared final state route
      (.cons site first second third rest)) :
    (declared.infer route (.cons site first second third rest)).isSome =
      site.node.kind.carriesType := by
  -- Targets of targets are assignments again, so the induction goes down first
  -- slots.
  induction first generalizing state route site second third rest with
  | nil => exact flawless.typeAt_isSome flawless.targeted.1
  | missing fault => exact flawless.typeAt_isSome flawless.targeted.1
  | cons target _ _ _ _ inFirst =>
      apply flawless.typeAt_isSome
      intro kind
      rw [inFirst flawless.onward.1]
      exact NodeKind.carriesType_of_isExpression (flawless.targeted.1 kind)

end Flawless

end Checking

section

variable {tree : Tree}

theorem Declaring.candid_last (builtins : Bool) (tree : Tree) :
    (last builtins tree).Candid := by
  have initially : (origin builtins).Candid := by
    intro id marked
    rw [(origin_fields builtins).1] at marked
    cases marked
  exact initially.walked (grows_origin builtins).sound tree.forest

theorem flawless (builtins : Bool) (single : tree.SinglePath)
    (complete : tree.forest.Complete) (shaped : tree.forest.FunctionsShaped)
    (targeted : tree.forest.Targeted)
    (accepted : ((Analysis.declared builtins tree).checked
      tree).diagnostics.items = []) :
    Checking.Flawless tree (Analysis.declared builtins tree)
      ((Analysis.declared builtins tree).checked tree).facts
      (Analysis.declared builtins tree).checking [] tree.forest := by
  have prepared := prepared builtins single complete shaped
  have reports := prepared.items_walked.symm.trans accepted
  obtain ⟨declaring, silent⟩ := List.append_eq_nil_iff.mp reports
  refine ⟨prepared, ?_, targeted, silent⟩
  intro id
  apply Bool.eq_false_of_not_eq_true
  intro marked
  exact Declaring.candid_last builtins tree id marked declaring

theorem Analysis.typeOf_accepted (builtins : Bool) (single : tree.SinglePath)
    (complete : tree.forest.Complete) (shaped : tree.forest.FunctionsShaped)
    (targeted : tree.forest.Targeted)
    (accepted : ((declared builtins tree).checked tree).diagnostics.items = [])
    {route : Route} {site : Site} (leads : tree.Leads tree.root route site.id)
    (found : tree.node site.id = .ok site.node) :
    (((declared builtins tree).checked tree).typeOf site.id).isSome =
      site.node.kind.carriesType := by
  obtain ⟨_, _, _, _, _, reaches⟩ := Forest.exists_reaches _ _ _
    ((Tree.mem_stops_iff single).mpr ⟨leads, found⟩)
  have here := (flawless builtins single complete shaped targeted
    accepted).of_reaches reaches
  rw [← here.infer_isSome, ← here.types_eq]
  rfl

end

/-- A program without a diagnostic has a type for each of its expressions,
declarations and named parameters, and for nothing else. -/
theorem accepted_fully_typed (config : Config) {tree : Tree}
    (single : tree.SinglePath) (shaped : tree.forest.FunctionsShaped)
    (targeted : tree.forest.Targeted) :
    (tree.InRange →
        ∃ analysis, (analyze config tree).result = .ok analysis) ∧
      ∀ analysis, (analyze config tree).result = .ok analysis →
        analysis.diagnostics.items = [] →
        ∀ site : Site, tree.node site.id = .ok site.node →
          ((analysis.typeOf site.id).isSome = true ↔
            site.node.kind.carriesType = true ∧
              ∃ route, tree.Leads tree.root route site.id) := by
  constructor
  · intro inRange
    exact ⟨_, Analysis.analyze_result config single
      (Analysis.complete single inRange)⟩
  · intro analysis ended accepted site found
    have complete := Analysis.complete_of_analyze ended
    cases ended.symm.trans (Analysis.analyze_result config single complete)
    by_cases reached : ∃ route, tree.Leads tree.root route site.id
    · obtain ⟨route, leads⟩ := reached
      rw [Analysis.typeOf_accepted config.builtins single complete shaped
        targeted accepted leads found]
      exact ⟨fun carries => ⟨carries, route, leads⟩, And.left⟩
    · have untyped := Analysis.typeOf_unreached config.builtins single
        (not_exists.mp reached)
      rw [untyped]
      exact ⟨nofun, fun both => absurd both.2 reached⟩

def chainedAssignment : Tree where
  nodes := #[
    { kind := .declaration (.function "twice" (some .int)), line := 1,
      first := some ⟨1⟩, second := some ⟨2⟩, sibling := some ⟨7⟩ },
    { kind := .parameter ⟨some "n", some .int, false⟩, line := 1 },
    { kind := .statement .compound, line := 1, second := some ⟨3⟩ },
    { kind := .statement .ret, line := 2, first := some ⟨4⟩ },
    { kind := .expression (.binary .add), line := 2,
      first := some ⟨5⟩, second := some ⟨6⟩ },
    { kind := .expression (.identifier "n"), line := 2 },
    { kind := .expression (.identifier "n"), line := 2 },
    { kind := .declaration (.function "main" (some .void)), line := 4,
      first := some ⟨8⟩, second := some ⟨9⟩ },
    { kind := .parameter ⟨none, some .void, false⟩, line := 4 },
    { kind := .statement .compound, line := 4,
      first := some ⟨10⟩, second := some ⟨11⟩ },
    { kind := .declaration (.variable "x" (some .int)), line := 5 },
    { kind := .expression .assign, line := 6,
      first := some ⟨12⟩, second := some ⟨15⟩ },
    { kind := .expression .assign, line := 6,
      first := some ⟨13⟩, second := some ⟨14⟩ },
    { kind := .expression (.identifier "x"), line := 6 },
    { kind := .expression (.constant 1), line := 6 },
    { kind := .expression (.call "twice"), line := 6, first := some ⟨16⟩ },
    { kind := .expression (.identifier "x"), line := 6 }]
  root := some ⟨0⟩

def outerAssignment : Site where
  id := ⟨11⟩
  node :=
    { kind := .expression .assign, line := 6,
      first := some ⟨12⟩, second := some ⟨15⟩ }

theorem chainedAssignment_unfolds :
    chainedAssignment.Unfolds chainedAssignment.root
      chainedAssignment.forest := by
  repeat constructor

theorem chainedAssignment_complete : chainedAssignment.forest.Complete := by
  repeat constructor

theorem chainedAssignment_single : chainedAssignment.SinglePath :=
  Tree.singlePath_of_unfolds chainedAssignment_unfolds
    chainedAssignment_complete (by decide)

theorem chainedAssignment_shaped :
    chainedAssignment.forest.FunctionsShaped := by
  have pair {site left right : Site}
      (kind : site.node.kind.isFunction = false)
      (onLeft : left.node.kind.isFunction = false)
      (onRight : right.node.kind.isFunction = false) :
      (Forest.cons site (.cons left .nil .nil .nil .nil)
        (.cons right .nil .nil .nil .nil) .nil .nil).FunctionsShaped :=
    .other kind (.leaf onLeft) (.leaf onRight) .nil .nil
  exact .function rfl (.cons rfl .nil) rfl .nil
    (.other rfl (pair rfl rfl rfl) .nil .nil .nil) .nil .nil
    (.function rfl (.cons rfl .nil) rfl (.leaf rfl)
      (.other rfl (pair rfl rfl rfl)
        (.other rfl (.leaf rfl) .nil .nil .nil) .nil .nil) .nil .nil .nil)

theorem chainedAssignment_targeted : chainedAssignment.forest.Targeted := by
  decide

theorem fully_typed_at_chained_assignment :
    chainedAssignment.SinglePath ∧ chainedAssignment.forest.FunctionsShaped ∧
      chainedAssignment.forest.Targeted ∧
      ∃ analysis, (analyze {} chainedAssignment).result = .ok analysis ∧
        analysis.diagnostics.items = [] ∧
        (analysis.typeOf outerAssignment.id).isSome = true := by
  refine ⟨chainedAssignment_single, chainedAssignment_shaped,
    chainedAssignment_targeted, ?_⟩
  obtain ⟨ends, typed⟩ := accepted_fully_typed {} chainedAssignment_single
    chainedAssignment_shaped chainedAssignment_targeted
  obtain ⟨analysis, ended⟩ := ends (Tree.inRange_of_unfolds
    chainedAssignment_unfolds chainedAssignment_complete)
  have silent : (analyze {} chainedAssignment).result.map
      (fun analysis => analysis.diagnostics.items) = .ok [] := by
    decide +kernel
  rw [ended] at silent
  have accepted : analysis.diagnostics.items = [] := by
    simpa [Except.map] using silent
  obtain ⟨route, leads, found⟩ :=
    Tree.leads_of_visited chainedAssignment_single outerAssignment (by decide)
  exact ⟨analysis, ended, accepted,
    (typed analysis ended accepted outerAssignment found).mpr
      ⟨rfl, route, leads⟩⟩

end CMinusAnalysis
