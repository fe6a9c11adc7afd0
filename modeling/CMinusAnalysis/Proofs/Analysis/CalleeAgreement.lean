import CMinusAnalysis.Proofs.Analysis.Passes

namespace CMinusAnalysis

/-! The passes on the callee of a call. The declaring pass notes a call where
its name leads from the scope around it; the checking pass takes the global
function of that name. A local variable or a parameter of the name comes between
the two, and nothing else does. -/

/-- Leaving the call checks its arguments against the parameters of the
function, gives it the type of the function, and does nothing else. -/
structure Checking.Applies (state : Checking) (tree : Tree)
    (table : SymbolTable) (site : Site) (name : String)
    (function : SymbolId) : Prop where
  applied : ∃ entry arguments, table.symbol function = .ok entry ∧
    tree.siblings site.node.first = .ok arguments ∧
    state.step tree table (.leave site) = Run.result do
      let state ← state.checkArguments tree table name site.node.line 1
        arguments entry.parameters
      let state ← state.reportAny
        ((countObjection? entry.parameters.length arguments.length).map
          fun kind => ⟨kind, site.node.line, some name⟩)
      return { state with facts := state.facts.setType site.id entry.type }

theorem Checking.applies {state : Checking} {tree : Tree} {table : SymbolTable}
    {site : Site} {name : String} {function : SymbolId} {entry : Symbol}
    (linked : tree.Linked site)
    (kind : site.node.kind = .expression (.call name))
    (resolved : state.facts.unresolved.contains site.id = false)
    (hit : table.find? ScopeId.global name = some function)
    (stored : table.symbols[function.index]? = some entry)
    (isFunction : entry.isFunction = true) :
    state.Applies tree table site name function := by
  obtain ⟨arguments, chain, _⟩ := linked.siblings
  refine ⟨entry, arguments, SymbolTable.symbol_eq_ok stored, chain, ?_⟩
  have looked := SymbolTable.lookupLocal_eq (SymbolTable.has_of_find? hit) name
  rw [hit] at looked
  have held := SymbolTable.symbol_eq_ok stored
  simp only [step, visit, leave, leaveTyped, kind, leaveExpression, checkCall,
    resolved, Bool.false_eq_true, ↓reduceIte, looked, bind_pure_comp, chain,
    bind_assoc, Run.result_bind, Run.result_monadLift, ok_bind, held,
    isFunction, Run.result_map, bind_map_left, Run.result_pure]
  apply bind_congr
  intro checked
  cases (checked.reportAny _).result <;> rfl

/-- A call that gets a type has the global function of its name for its callee,
and is noted at the symbol that its name stands for where the call is. The two
are one symbol just when no scope inside the global one that is around the call
declares the name. -/
theorem passes_agree_on_callees (config : Config) {tree : Tree}
    (single : tree.SinglePath) (inRange : tree.InRange)
    (tidy : tree.forest.Tidy (.chain true)) :
    ∃ declared analysis, (declare config tree).result = .ok declared ∧
      (analyze config tree).result = .ok analysis ∧
      (∀ (route : Route) (site : Site), tree.Leads tree.root route site.id →
        tree.node site.id = .ok site.node → ∃ declaring checking,
          PassesAt config.builtins declared tree route site declaring
            checking) ∧
      ∀ (route : Route) (site : Site) (declaring : Declaring)
        (checking : Checking) (name : String) (type : Ty),
        PassesAt config.builtins declared tree route site declaring checking →
        site.node.kind = .expression (.call name) →
        analysis.typeOf site.id = some type →
        ∃ function noted entry,
          analysis.table.globalFunction? name = some function ∧
          analysis.table.symbol function = .ok entry ∧ entry.type = type ∧
          checking.Applies tree analysis.table site name function ∧
          declaring.Notes site noted ∧
          analysis.table.lookup checking.current name = .ok (some noted) ∧
          (noted = function ↔
            ∀ scope ∈ analysis.table.outward checking.current,
              scope ≠ ScopeId.global →
              analysis.table.lookupLocal scope name = .ok none) := by
  have complete := Analysis.complete single inRange
  refine ⟨_, _, Analysis.declare_result config complete,
    Analysis.analyze_result config single complete,
    fun _ _ => exists_passesAt config.builtins single complete, ?_⟩
  intro route site declaring checking name type passes kind typed
  have use : site.node.kind.use? = some name := by
    rw [kind]
    rfl
  have standing := Checking.standing config.builtins single complete
    tidy.functionsShaped passes.left
  have coherent := standing.sound.coherent
  have stop := (Tree.mem_stops_iff single).mpr ⟨passes.reached, passes.found⟩
  have linked := Analysis.linked single complete site
    (Forest.mem_sites_of_mem_stops stop)
  rw [Analysis.typeOf, standing.typed, Checking.gained] at typed
  simp only [kind] at typed
  rcases passes.resolution single complete tidy use with
    ⟨noted, notes, found, marked⟩ | ⟨_, marked⟩
  · have resolved : checking.facts.unresolved.contains site.id = false := by
      rw [standing.follows.unresolved, marked]
    rw [resolved] at typed
    simp only [Bool.false_eq_true, ↓reduceIte, Option.bind_eq_some_iff,
      Checking.callee?, Option.ite_none_right_eq_some,
      Option.some.injEq] at typed
    obtain ⟨entry, ⟨function, hit, stored⟩, isFunction, returns⟩ := typed
    refine ⟨function, noted, entry,
      SymbolTable.globalFunction?_eq_some hit stored isFunction,
      SymbolTable.symbol_eq_ok stored, returns,
      Checking.applies linked kind resolved hit stored isFunction, notes,
      (SymbolTable.lookup_eq coherent standing.sound.current name).trans
        (congrArg _ found), ?_⟩
    have hidden := SymbolTable.resolve_eq_global_iff coherent
      standing.sound.current hit
    rw [found, Option.some.injEq] at hidden
    rw [hidden]
    apply forall₂_congr
    intro scope around
    rw [Analysis.table_checked, SymbolTable.lookupLocal_eq (SymbolTable.has_of_mem_outward coherent
      standing.sound.current around), Except.ok.injEq]
  · rw [standing.follows.unresolved, marked] at typed
    cases typed

def CalleesAgree (config : Config) (tree : Tree) : Prop :=
  ∀ (declared analysis : Analysis) (route : Route) (site : Site)
    (declaring : Declaring) (checking : Checking) (name : String) (type : Ty),
    (declare config tree).result = .ok declared →
    (analyze config tree).result = .ok analysis →
    PassesAt config.builtins declared tree route site declaring checking →
    site.node.kind = .expression (.call name) →
    analysis.typeOf site.id = some type →
    ∃ function, analysis.table.globalFunction? name = some function ∧
      checking.Applies tree analysis.table site name function ∧
      declaring.Notes site function

def shadowedCall : Tree where
  nodes := #[
    { kind := .declaration (.function "f" (some .void)), line := 1,
      first := some ⟨1⟩, second := some ⟨2⟩, sibling := some ⟨3⟩ },
    { kind := .parameter ⟨none, some .void, false⟩, line := 1 },
    { kind := .statement .compound, line := 1 },
    { kind := .declaration (.function "main" (some .void)), line := 2,
      first := some ⟨4⟩, second := some ⟨5⟩ },
    { kind := .parameter ⟨none, some .void, false⟩, line := 2 },
    { kind := .statement .compound, line := 2,
      first := some ⟨6⟩, second := some ⟨7⟩ },
    { kind := .declaration (.variable "f" (some .int)), line := 3 },
    { kind := .expression (.call "f"), line := 4 }]
  root := some ⟨0⟩

def hiddenCall : Site :=
  ⟨⟨7⟩, { kind := .expression (.call "f"), line := 4 }⟩

theorem shadowedCall_unfolds :
    shadowedCall.Unfolds shadowedCall.root shadowedCall.forest := by
  repeat constructor

theorem shadowedCall_complete : shadowedCall.forest.Complete := by
  repeat constructor

theorem shadowedCall_single : shadowedCall.SinglePath :=
  Tree.singlePath_of_unfolds shadowedCall_unfolds shadowedCall_complete
    (by decide)

theorem shadowedCall_inRange : shadowedCall.InRange :=
  Tree.inRange_of_unfolds shadowedCall_unfolds shadowedCall_complete

theorem shadowedCall_tidy : shadowedCall.forest.Tidy (.chain true) :=
  .function rfl (.cons rfl .nil) rfl (.undeclared .nil) .nil .nil .nil
    (.function rfl (.cons rfl .nil) rfl (.declared (.cons rfl .nil))
      (.other rfl rfl rfl rfl .nil .nil .nil .nil) .nil .nil .nil)

theorem shadowedCall_outcome {analysis : Analysis}
    (ended : (analyze {} shadowedCall).result = .ok analysis) :
    analysis.typeOf hiddenCall.id = some .void ∧
      analysis.table.globalFunction? "f" = some ⟨2⟩ ∧
      analysis.diagnostics.items = [] := by
  have outcome : (analyze {} shadowedCall).result.map (fun analysis =>
      (analysis.typeOf hiddenCall.id, analysis.table.globalFunction? "f",
        analysis.diagnostics.items)) = .ok (some .void, some ⟨2⟩, []) := by
    decide +kernel
  rw [ended] at outcome
  simpa [Except.map] using outcome

theorem shadowedCall_lines :
    ∀ moment ∈ Declaring.history true shadowedCall,
      moment.2.2 = Visit.enter hiddenCall →
      (moment.1.step moment.2.2).map (fun state =>
          state.table.symbols[2]?.map Symbol.lines) =
        .ok (moment.1.table.symbols[2]?.map Symbol.lines) := by
  decide +kernel

theorem hiddenCall_unnoted {declaring : Declaring} {route : Route}
    (entered : (declaring, route, Visit.enter hiddenCall) ∈
      Declaring.history true shadowedCall) :
    ¬ declaring.Notes hiddenCall ⟨2⟩ := by
  rintro ⟨⟨entry, known⟩, noted⟩
  have unchanged := shadowedCall_lines _ entered rfl
  have stored : declaring.table.symbols[2]? = some entry :=
    fetch_eq_ok_iff.mp known
  rw [noted] at unchanged
  simp [Except.map, SymbolTable.modifySymbol, Array.getElem?_modify,
    stored] at unchanged

/-- A call may be noted at a local variable and checked against a function. -/
theorem callees_disagree_when_shadowed :
    shadowedCall.SinglePath ∧ shadowedCall.InRange ∧
      shadowedCall.forest.Tidy (.chain true) ∧
      ¬ CalleesAgree {} shadowedCall := by
  refine ⟨shadowedCall_single, shadowedCall_inRange, shadowedCall_tidy, ?_⟩
  intro agree
  obtain ⟨route, leads, found⟩ :=
    Tree.leads_of_visited shadowedCall_single hiddenCall (by decide)
  obtain ⟨declaring, checking, passes⟩ := exists_passesAt true
    shadowedCall_single shadowedCall_complete leads found
  have ended := Analysis.analyze_result {} shadowedCall_single
    shadowedCall_complete
  obtain ⟨typed, global, _⟩ := shadowedCall_outcome ended
  obtain ⟨function, callee, _, notes⟩ := agree _ _ _ _ _ _ "f" _
    (Analysis.declare_result {} shadowedCall_complete) ended passes rfl typed
  cases Option.some.inj (callee.symm.trans global)
  exact hiddenCall_unnoted passes.entered notes

theorem passes_agree_at_shadowed_call :
    shadowedCall.SinglePath ∧ shadowedCall.InRange ∧
      shadowedCall.forest.Tidy (.chain true) ∧
      ∃ declared analysis route declaring checking noted entry,
        (declare {} shadowedCall).result = .ok declared ∧
        (analyze {} shadowedCall).result = .ok analysis ∧
        PassesAt true declared shadowedCall route hiddenCall declaring
          checking ∧
        analysis.typeOf hiddenCall.id = some .void ∧
        analysis.table.globalFunction? "f" = some ⟨2⟩ ∧
        analysis.table.symbol ⟨2⟩ = .ok entry ∧ entry.type = .void ∧
        checking.Applies shadowedCall analysis.table hiddenCall "f" ⟨2⟩ ∧
        declaring.Notes hiddenCall noted ∧
        analysis.table.lookup checking.current "f" = .ok (some noted) ∧
        noted ≠ ⟨2⟩ ∧
        ∃ scope ∈ analysis.table.outward checking.current,
          scope ≠ ScopeId.global ∧
          analysis.table.lookupLocal scope "f" ≠ .ok none := by
  refine ⟨shadowedCall_single, shadowedCall_inRange, shadowedCall_tidy, ?_⟩
  obtain ⟨declared, analysis, ran, ended, visited, agree⟩ :=
    passes_agree_on_callees {} shadowedCall_single shadowedCall_inRange
      shadowedCall_tidy
  obtain ⟨typed, global, _⟩ := shadowedCall_outcome ended
  obtain ⟨route, leads, found⟩ :=
    Tree.leads_of_visited shadowedCall_single hiddenCall (by decide)
  obtain ⟨declaring, checking, passes⟩ := visited _ _ leads found
  obtain ⟨function, noted, entry, callee, stored, returns, applies, notes,
    looked, hidden⟩ := agree _ _ _ _ "f" _ passes rfl typed
  cases Option.some.inj (callee.symm.trans global)
  have apart : noted ≠ ⟨2⟩ := by
    rintro rfl
    exact hiddenCall_unnoted passes.entered notes
  refine ⟨declared, analysis, route, declaring, checking, noted, entry, ran,
    ended, passes, typed, global, stored, returns, applies, notes, looked, apart,
    ?_⟩
  have covered := mt hidden.mpr apart
  push Not at covered
  exact covered

end CMinusAnalysis
