import CMinusAnalysis.Proofs.Analysis.Passes

namespace CMinusAnalysis

theorem hasInternal_checked (builtins : Bool) {tree : Tree}
    (single : tree.SinglePath) (complete : tree.forest.Complete)
    (shaped : tree.forest.FunctionsShaped) :
    ((Analysis.declared builtins tree).checked tree).diagnostics.hasInternal =
      false := by
  have consistent : (Analysis.declared builtins tree).checking.Consistent := by
    have initially : (Declaring.origin builtins).Consistent := by
      simp [Declaring.Consistent, (Declaring.origin_fields builtins).2.1]
    exact initially.walked tree.forest
  have silent := (placed builtins single complete shaped).consistent tree
    consistent
  rw [Diagnostics.hasInternal, List.any_eq_false]
  intro diagnostic member
  simp [silent diagnostic member]

/-- Each use of a name is entered by the declaring pass and left by the checking
pass in the scope recorded for the nearest block above it, and neither a lost
name nor a lost block is reported. -/
theorem passes_agree_on_scopes (config : Config) {tree : Tree}
    (single : tree.SinglePath) (inRange : tree.InRange)
    (shaped : tree.forest.FunctionsShaped) :
    ∃ declared analysis, (declare config tree).result = .ok declared ∧
      (analyze config tree).result = .ok analysis ∧
      analysis.diagnostics.hasInternal = false ∧
      (∀ (route : Route) (site : Site), tree.Leads tree.root route site.id →
        tree.node site.id = .ok site.node → ∃ declaring checking,
          PassesAt config.builtins declared tree route site declaring
            checking) ∧
      ∀ (route : Route) (site : Site) (declaring : Declaring)
        (checking : Checking) (name : String),
        PassesAt config.builtins declared tree route site declaring checking →
        site.node.kind.use? = some name →
        declaring.current = checking.current ∧
          analysis.facts.scopeAround route.ancestors =
            some declaring.current := by
  have complete := Analysis.complete single inRange
  refine ⟨_, _, Analysis.declare_result config complete,
    Analysis.analyze_result config single complete,
    hasInternal_checked config.builtins single complete shaped,
    fun _ _ => exists_passesAt config.builtins single complete, ?_⟩
  intro route site declaring checking name passes use
  obtain ⟨same, around⟩ := passes.same_scope single complete shaped use
  refine ⟨same, ?_⟩
  rw [← around]
  apply Facts.scopeAround_congr
  exact (follows_checked config.builtins single complete shaped).blocks

def nestedFunction : Tree where
  nodes := #[
    { kind := .declaration (.function "main" (some .void)), line := 1,
      first := some ⟨1⟩, second := some ⟨2⟩ },
    { kind := .parameter ⟨none, some .void, false⟩, line := 1 },
    { kind := .statement .compound, line := 1,
      first := some ⟨3⟩, second := some ⟨4⟩ },
    { kind := .declaration (.variable "x" (some .int)), line := 2 },
    { kind := .statement .compound, line := 3, second := some ⟨5⟩ },
    { kind := .declaration (.function "helper" (some .int)), line := 4,
      first := some ⟨6⟩, sibling := some ⟨7⟩ },
    { kind := .parameter ⟨some "y", some .int, false⟩, line := 4 },
    { kind := .expression .assign, line := 5,
      first := some ⟨8⟩, second := some ⟨9⟩ },
    { kind := .expression (.identifier "x"), line := 5 },
    { kind := .expression (.identifier "ghost"), line := 5 }]
  root := some ⟨0⟩

def ghost : Site :=
  ⟨⟨9⟩, { kind := .expression (.identifier "ghost"), line := 5 }⟩

theorem nestedFunction_unfolds :
    nestedFunction.Unfolds nestedFunction.root nestedFunction.forest := by
  repeat constructor

theorem nestedFunction_complete : nestedFunction.forest.Complete := by
  repeat constructor

theorem nestedFunction_single : nestedFunction.SinglePath :=
  Tree.singlePath_of_unfolds nestedFunction_unfolds nestedFunction_complete
    (by decide)

theorem nestedFunction_inRange : nestedFunction.InRange :=
  Tree.inRange_of_unfolds nestedFunction_unfolds nestedFunction_complete

theorem nestedFunction_shaped : nestedFunction.forest.FunctionsShaped :=
  .function rfl (.cons rfl .nil) rfl (.leaf rfl)
    (.other rfl .nil
      (.bodiless rfl (.cons rfl .nil)
        (.other rfl (.leaf rfl) (.leaf rfl) .nil .nil)) .nil .nil)
    .nil .nil .nil

theorem passes_agree_at_ghost :
    nestedFunction.SinglePath ∧ nestedFunction.InRange ∧
      nestedFunction.forest.FunctionsShaped ∧
      ∃ declared analysis route declaring checking,
        (declare {} nestedFunction).result = .ok declared ∧
        (analyze {} nestedFunction).result = .ok analysis ∧
        analysis.diagnostics.hasInternal = false ∧
        PassesAt true declared nestedFunction route ghost declaring checking ∧
        declaring.current = checking.current ∧
        analysis.facts.scopeAround route.ancestors =
          some declaring.current := by
  refine ⟨nestedFunction_single, nestedFunction_inRange, nestedFunction_shaped,
    ?_⟩
  obtain ⟨declared, analysis, ran, ended, silent, visited, agree⟩ :=
    passes_agree_on_scopes {} nestedFunction_single nestedFunction_inRange
      nestedFunction_shaped
  obtain ⟨route, leads, found⟩ :=
    Tree.leads_of_visited nestedFunction_single ghost (by decide)
  obtain ⟨declaring, checking, passes⟩ := visited route ghost leads found
  obtain ⟨same, around⟩ := agree route ghost declaring checking "ghost" passes rfl
  exact ⟨declared, analysis, route, declaring, checking, ran, ended, silent,
    passes, same, around⟩

end CMinusAnalysis
