import CMinusAnalysis.Proofs.Analysis.Passes
import CMinusAnalysis.Proofs.Checking.Inference

namespace CMinusAnalysis

section

variable {tree : Tree}

theorem prepared (builtins : Bool) (single : tree.SinglePath)
    (complete : tree.forest.Complete) (shaped : tree.forest.FunctionsShaped) :
    Checking.Prepared tree (Analysis.declared builtins tree)
      ((Analysis.declared builtins tree).checked tree).facts
      (Analysis.declared builtins tree).checking [] tree.forest where
  toReady := ready builtins single complete shaped
  untyped := Analysis.untyped builtins tree
  kept := (follows_checked builtins single complete shaped).unresolved
  slots := single.unfolds.slots
  complete := complete
  enclosed := rfl

theorem Analysis.infer_unfold (declared : Analysis) (single : tree.SinglePath)
    {route : Route} {site : Site} (leads : tree.Leads tree.root route site.id)
    (found : tree.node site.id = .ok site.node)
    {first : Forest} (inFirst : tree.Unfolds site.node.first first)
    (second third rest : Forest) :
    declared.infer route (tree.unfold (some site.id)) =
      declared.infer route (.cons site first second third rest) := by
  have unfolds : tree.Unfolds (some site.id) (tree.unfold (some site.id)) := by
    apply single.acyclic.unfolds_from
    rintro id ⟨rfl⟩
    exact leads
  generalize tree.unfold (some site.id) = whole at unfolds
  cases unfolds with
  | missing lost => cases found.symm.trans lost
  | node same ofFirst =>
      cases found.symm.trans same
      rw [ofFirst.unique inFirst]
      rfl

theorem Analysis.typeOf_checked (builtins : Bool) (single : tree.SinglePath)
    (complete : tree.forest.Complete) (shaped : tree.forest.FunctionsShaped)
    {route : Route} {site : Site} (leads : tree.Leads tree.root route site.id)
    (found : tree.node site.id = .ok site.node) :
    ((declared builtins tree).checked tree).typeOf site.id =
      (declared builtins tree).infer route (tree.unfold (some site.id)) := by
  obtain ⟨_, _, _, _, _, reaches⟩ := Forest.exists_reaches _ _ _
    ((Tree.mem_stops_iff single).mpr ⟨leads, found⟩)
  have here := (prepared builtins single complete shaped).of_reaches reaches
  rw [infer_unfold _ single leads found here.slots.1]
  exact here.types_eq

theorem Analysis.typeOf_unreached (builtins : Bool) (single : tree.SinglePath)
    {id : NodeId} (unreached : ∀ route, ¬ tree.Leads tree.root route id) :
    ((declared builtins tree).checked tree).typeOf id = none := by
  have outside : id ∉ tree.forest.ids := by
    intro member
    obtain ⟨route, leads⟩ :=
      single.unfolds.exists_extension (fun _ => .start) member
    exact unreached _ leads
  have agree := (Checking.recording tree (declared builtins tree).table).fold
    (declared builtins tree).checking outside
  refine agree.types.trans ?_
  rw [checking, untyped, NodeTable.get?_empty]

end

/-- Checking what has been declared gives every node the type that is inferred
for it from the declarations, and reports what is wrong with each node in the
order in which a walk leaves them. -/
theorem checking_is_compositional (config : Config) {tree : Tree}
    (single : tree.SinglePath) (inRange : tree.InRange)
    (shaped : tree.forest.FunctionsShaped) :
    ∃ declared analysis, (declare config tree).result = .ok declared ∧
      (declared.check tree).result = .ok analysis ∧
      (∀ (route : Route) (site : Site), tree.Leads tree.root route site.id →
        tree.node site.id = .ok site.node →
        analysis.typeOf site.id =
          declared.infer route (tree.unfold (some site.id))) ∧
      (∀ id, (∀ route, ¬ tree.Leads tree.root route id) →
        analysis.typeOf id = none) ∧
      analysis.diagnostics.items =
        declared.diagnostics.items ++ declared.findings [] tree.forest := by
  have complete := Analysis.complete single inRange
  refine ⟨_, _, Analysis.declare_result config complete,
    Analysis.check_result config.builtins single complete, ?_, ?_, ?_⟩
  · intro route site leads found
    exact Analysis.typeOf_checked config.builtins single complete shaped leads
      found
  · intro id unreached
    exact Analysis.typeOf_unreached config.builtins single unreached
  · exact (prepared config.builtins single complete shaped).items_walked

def mistypedCall : Tree where
  nodes := #[
    { kind := .declaration (.function "scale" (some .int)), line := 1,
      first := some ⟨1⟩, second := some ⟨2⟩, sibling := some ⟨5⟩ },
    { kind := .parameter ⟨some "a", some .int, true⟩, line := 1 },
    { kind := .statement .compound, line := 1, second := some ⟨3⟩ },
    { kind := .statement .ret, line := 2, first := some ⟨4⟩ },
    { kind := .expression (.identifier "a"), line := 2 },
    { kind := .declaration (.function "main" (some .void)), line := 4,
      first := some ⟨6⟩, second := some ⟨7⟩ },
    { kind := .parameter ⟨none, some .void, false⟩, line := 4 },
    { kind := .statement .compound, line := 4,
      first := some ⟨8⟩, second := some ⟨9⟩ },
    { kind := .declaration (.variable "x" (some .int)), line := 5 },
    { kind := .statement .assign, line := 6,
      first := some ⟨10⟩, second := some ⟨11⟩ },
    { kind := .expression (.identifier "x"), line := 6 },
    { kind := .expression .assign, line := 6,
      first := some ⟨12⟩, second := some ⟨13⟩ },
    { kind := .expression (.identifier "x"), line := 6 },
    { kind := .expression (.call "scale"), line := 6, first := some ⟨14⟩ },
    { kind := .expression (.identifier "x"), line := 6 }]
  root := some ⟨0⟩

def innerAssignment : Site where
  id := ⟨11⟩
  node :=
    { kind := .expression .assign, line := 6,
      first := some ⟨12⟩, second := some ⟨13⟩ }

theorem mistypedCall_unfolds :
    mistypedCall.Unfolds mistypedCall.root mistypedCall.forest := by
  repeat constructor

theorem mistypedCall_complete : mistypedCall.forest.Complete := by
  repeat constructor

theorem mistypedCall_single : mistypedCall.SinglePath :=
  Tree.singlePath_of_unfolds mistypedCall_unfolds mistypedCall_complete
    (by decide)

theorem mistypedCall_inRange : mistypedCall.InRange :=
  Tree.inRange_of_unfolds mistypedCall_unfolds mistypedCall_complete

theorem mistypedCall_shaped : mistypedCall.forest.FunctionsShaped := by
  have inner : (mistypedCall.unfold (some ⟨11⟩)).FunctionsShaped :=
    .other rfl (.leaf rfl) (.other rfl (.leaf rfl) .nil .nil .nil) .nil .nil
  exact .function rfl (.cons rfl .nil) rfl .nil
    (.other rfl (.leaf rfl) .nil .nil .nil) .nil .nil
    (.function rfl (.cons rfl .nil) rfl (.leaf rfl)
      (.other rfl (.leaf rfl) inner .nil .nil) .nil .nil .nil)

theorem mistypedCall_outcome {declared analysis : Analysis}
    (ran : (declare {} mistypedCall).result = .ok declared)
    (ended : (declared.check mistypedCall).result = .ok analysis) :
    declared.diagnostics.items = [] ∧
      declared.findings [] mistypedCall.forest = [
        ⟨.returnTypeMismatch .integer .integerArray, 2, some "scale"⟩,
        ⟨.argumentTypeMismatch 1 .integerArray .integer, 6, some "scale"⟩] ∧
      analysis.typeOf innerAssignment.id = some .integer := by
  have found : (declare {} mistypedCall).result.map (fun declared =>
      (declared.diagnostics.items, declared.findings [] mistypedCall.forest)) =
      .ok ([], [
        ⟨.returnTypeMismatch .integer .integerArray, 2, some "scale"⟩,
        ⟨.argumentTypeMismatch 1 .integerArray .integer, 6,
          some "scale"⟩]) := by
    decide +kernel
  have typed : ((declare {} mistypedCall).result.bind fun declared =>
      (declared.check mistypedCall).result).map (fun analysis =>
        analysis.typeOf innerAssignment.id) = .ok (some .integer) := by
    decide +kernel
  rw [ran] at found typed
  simp only [Except.bind, ended] at typed
  simp only [Except.map, Except.ok.injEq, Prod.mk.injEq] at found typed
  exact ⟨found.1, found.2, typed⟩

theorem compositional_at_mistyped_call :
    mistypedCall.SinglePath ∧ mistypedCall.InRange ∧
      mistypedCall.forest.FunctionsShaped ∧
      ∃ declared analysis route,
        (declare {} mistypedCall).result = .ok declared ∧
        (declared.check mistypedCall).result = .ok analysis ∧
        mistypedCall.Leads mistypedCall.root route innerAssignment.id ∧
        analysis.typeOf innerAssignment.id = some .integer ∧
        declared.infer route (mistypedCall.unfold (some innerAssignment.id)) =
          some .integer ∧
        analysis.typeOf ⟨15⟩ = none ∧
        analysis.diagnostics.items = [
          ⟨.returnTypeMismatch .integer .integerArray, 2, some "scale"⟩,
          ⟨.argumentTypeMismatch 1 .integerArray .integer, 6,
            some "scale"⟩] ∧
        declared.findings [] mistypedCall.forest =
          analysis.diagnostics.items := by
  refine ⟨mistypedCall_single, mistypedCall_inRange, mistypedCall_shaped, ?_⟩
  obtain ⟨declared, analysis, ran, ended, types, others, reports⟩ :=
    checking_is_compositional {} mistypedCall_single mistypedCall_inRange
      mistypedCall_shaped
  obtain ⟨silent, findings, typed⟩ := mistypedCall_outcome ran ended
  obtain ⟨route, leads, found⟩ :=
    Tree.leads_of_visited mistypedCall_single innerAssignment (by decide)
  have inferred := types route innerAssignment leads found
  have nowhere := others ⟨15⟩ fun _ leads =>
    absurd (mistypedCall_inRange leads) (by decide)
  rw [silent, List.nil_append] at reports
  exact ⟨declared, analysis, route, ran, ended, leads, typed,
    inferred.symm.trans typed, nowhere, reports.trans findings, reports.symm⟩

end CMinusAnalysis
