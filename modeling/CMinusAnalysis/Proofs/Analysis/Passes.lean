import CMinusAnalysis.Analysis.Basic
import CMinusAnalysis.Proofs.Checking.Standing
import CMinusAnalysis.Proofs.Declaring.Standing
import CMinusAnalysis.Proofs.Declaring.Tables

namespace CMinusAnalysis

/-- The visits of the declaring pass, each with the state that it finds. -/
def Declaring.history (builtins : Bool) (tree : Tree) :
    List (Declaring × Route × Visit) :=
  match (start builtins).result with
  | .ok state => trace step state tree.stops
  | .error _ => []

def Checking.history (declared : Analysis) (tree : Tree) :
    List (Checking × Route × Visit) :=
  match declared.table.global? with
  | some global =>
      trace (step tree declared.table)
        { facts := declared.facts
          diagnostics := declared.diagnostics
          current := global } tree.stops
  | none => []

/-- A node that the root leads to, with the states in which the declaring pass
enters it and the checking pass leaves it. -/
structure PassesAt (builtins : Bool) (declared : Analysis) (tree : Tree)
    (route : Route) (site : Site) (declaring : Declaring)
    (checking : Checking) : Prop where
  reached : tree.Leads tree.root route site.id
  found : tree.node site.id = .ok site.node
  entered : (declaring, route, Visit.enter site) ∈
    Declaring.history builtins tree
  left : (checking, route, Visit.leave site) ∈ Checking.history declared tree

/-- Entering the node adds its line to the symbol, and does nothing else. -/
structure Declaring.Notes (state : Declaring) (site : Site)
    (symbol : SymbolId) : Prop where
  known : ∃ entry, state.table.symbol symbol = .ok entry
  noted : state.step (.enter site) = .ok { state with
    table := state.table.modifySymbol symbol (·.addLine site.node.line) }

def Declaring.last (builtins : Bool) (tree : Tree) : Declaring :=
  (origin builtins).walked tree.forest

def Analysis.declared (builtins : Bool) (tree : Tree) : Analysis where
  table := (Declaring.last builtins tree).table
  facts := (Declaring.last builtins tree).facts
  diagnostics := (Declaring.last builtins tree).diagnostics

namespace Analysis

def checking (declared : Analysis) : Checking where
  facts := declared.facts
  diagnostics := declared.diagnostics

def checked (declared : Analysis) (tree : Tree) : Analysis where
  table := declared.table
  facts := (declared.checking.walked tree declared.table tree.forest).facts
  diagnostics :=
    (declared.checking.walked tree declared.table tree.forest).diagnostics

@[simp] theorem table_checked (declared : Analysis) (tree : Tree) :
    (declared.checked tree).table = declared.table := rfl

variable {tree : Tree}

theorem sound_last (builtins : Bool) (tree : Tree) :
    (Declaring.last builtins tree).Sound :=
  (Declaring.grows_walked (Declaring.grows_origin builtins).sound _).sound

theorem sound_checking (builtins : Bool) (tree : Tree) :
    (declared builtins tree).checking.Sound (declared builtins tree).table where
  nested := (sound_last builtins tree).coherent.nested
  coherent := (sound_last builtins tree).coherent
  current := (sound_last builtins tree).global
  blocks := (sound_last builtins tree).blocks
  functions := (sound_last builtins tree).functions
  function := by simp [checking]
  outer := by simp [checking]

theorem declare_result (config : Config) (complete : tree.forest.Complete) :
    (declare config tree).result = .ok (declared config.builtins tree) := by
  simp only [declare, Run.result_bind,
    Declaring.run_result config.builtins complete, ok_bind]
  split <;> simp [declared, Declaring.last]

theorem complete (single : tree.SinglePath) (inRange : tree.InRange) :
    tree.forest.Complete :=
  single.unfolds.complete (fun _ => .start) inRange

theorem complete_of_declare {config : Config} {analysis : Analysis}
    (ran : (declare config tree).result = .ok analysis) :
    tree.forest.Complete := by
  rw [declare, Run.result_bind] at ran
  obtain ⟨state, declared, _⟩ := bind_eq_ok_iff.mp ran
  exact Declaring.complete_of_run declared

theorem complete_of_analyze {config : Config} {analysis : Analysis}
    (ended : (analyze config tree).result = .ok analysis) :
    tree.forest.Complete := by
  rw [analyze, Run.result_bind] at ended
  obtain ⟨declared, ran, _⟩ := bind_eq_ok_iff.mp ended
  exact complete_of_declare ran

theorem linked_of_acyclic (acyclic : tree.Acyclic)
    (complete : tree.forest.Complete) :
    ∀ site ∈ tree.forest.sites, tree.Linked site :=
  Checking.linked_of_unfolds acyclic acyclic.unfolds complete fun _ => .start

theorem linked (single : tree.SinglePath) (complete : tree.forest.Complete) :
    ∀ site ∈ tree.forest.sites, tree.Linked site :=
  linked_of_acyclic single.acyclic complete

theorem check_of_supported {known : Analysis}
    (supported : known.checking.Supported known.table)
    (acyclic : tree.Acyclic) (complete : tree.forest.Complete) :
    (known.check tree).result = .ok (known.checked tree) := by
  have ran := Checking.run_result complete (linked_of_acyclic acyclic complete)
    supported
  simp only [check, Run.result_bind]
  rw [ran]
  rfl

theorem check_of_acyclic (builtins : Bool) (acyclic : tree.Acyclic)
    (complete : tree.forest.Complete) :
    ((declared builtins tree).check tree).result =
      .ok ((declared builtins tree).checked tree) :=
  check_of_supported (sound_checking builtins tree).toSupported acyclic complete

theorem check_result (builtins : Bool) (single : tree.SinglePath)
    (complete : tree.forest.Complete) :
    ((declared builtins tree).check tree).result =
      .ok ((declared builtins tree).checked tree) :=
  check_of_acyclic builtins single.acyclic complete

theorem analyze_of_acyclic (config : Config) (acyclic : tree.Acyclic)
    (complete : tree.forest.Complete) :
    (analyze config tree).result =
      .ok ((declared config.builtins tree).checked tree) := by
  simp only [analyze, Run.result_bind, declare_result config complete,
    check_of_acyclic config.builtins acyclic complete, ok_bind,
    Run.result_record, Run.result_pure]

theorem analyze_result (config : Config) (single : tree.SinglePath)
    (complete : tree.forest.Complete) :
    (analyze config tree).result =
      .ok ((declared config.builtins tree).checked tree) :=
  analyze_of_acyclic config single.acyclic complete

theorem untyped (builtins : Bool) (tree : Tree) :
    (declared builtins tree).facts.types = {} := by
  have grown := Declaring.grows_walked (Declaring.grows_origin builtins).sound
    tree.forest
  refine grown.types.trans ?_
  rw [(Declaring.origin_fields builtins).1]
  rfl

end Analysis

section

variable {tree : Tree}

theorem Declaring.history_eq (builtins : Bool) (tree : Tree) :
    history builtins tree = trace step (origin builtins) tree.stops := by
  rw [history, start_result]

theorem Checking.history_of_supported {known : Analysis}
    (supported : known.checking.Supported known.table) (tree : Tree) :
    history known tree =
      trace (step tree known.table) known.checking tree.stops := by
  rw [history, SymbolTable.global?_eq_some supported.current]
  rfl

theorem Checking.history_eq (builtins : Bool) (tree : Tree) :
    history (Analysis.declared builtins tree) tree =
      trace (step tree (Analysis.declared builtins tree).table)
        (Analysis.declared builtins tree).checking tree.stops :=
  history_of_supported (Analysis.sound_checking builtins tree).toSupported tree

theorem Declaring.stops_result (builtins : Bool)
    (complete : tree.forest.Complete) :
    (tree.stops.map Prod.snd).foldlM step (origin builtins) =
      .ok (last builtins tree) := by
  rw [Tree.stops, Forest.map_snd_stops]
  exact ((steps tree.forest.sites).traverse complete
    (grows_origin builtins).sound).1

theorem Declaring.exists_mem_history (builtins : Bool)
    (complete : tree.forest.Complete) {route : Route} {visit : Visit}
    (stop : (route, visit) ∈ tree.stops) :
    ∃ declaring, (declaring, route, visit) ∈ history builtins tree := by
  rw [history_eq]
  exact exists_mem_trace (stops_result builtins complete) stop

theorem Declaring.grows_last {builtins : Bool}
    (complete : tree.forest.Complete) {declaring : Declaring} {route : Route}
    {visit : Visit}
    (member : (declaring, route, visit) ∈ history builtins tree) :
    declaring.Sound ∧ declaring.Grows (last builtins tree) := by
  rw [history_eq] at member
  obtain ⟨before, after, _, reached, onward⟩ :=
    exists_split_of_mem_trace (stops_result builtins complete) member
  have sound := (visits_induction (grows_origin builtins).sound reached
    (motive := fun _ _ => True) trivial (fun _ _ _ => trivial)
    (fun _ _ _ => trivial)).1
  refine ⟨sound, ?_⟩
  apply (visits_induction sound onward
    (motive := fun later _ => declaring.Grows later) (.refl sound) ?_ ?_).2
  · exact fun _ sound grown => grown.trans (grows_entered sound _)
  · exact fun _ sound grown => grown.trans (grows_left sound _)

theorem Declaring.Kept.last {holds : SymbolTable → Prop} (kept : Kept holds)
    (held : holds bare.table) (builtins : Bool)
    (complete : tree.forest.Complete) : holds (last builtins tree).table :=
  kept.visits (grows_origin builtins).sound (kept.origin builtins held)
    (stops_result builtins complete)

theorem Declaring.Kept.at_visit {holds : SymbolTable → Prop}
    (kept : Kept holds) (held : holds bare.table) {builtins : Bool}
    (complete : tree.forest.Complete) {declaring : Declaring} {route : Route}
    {visit : Visit}
    (member : (declaring, route, visit) ∈ history builtins tree) :
    holds declaring.table := by
  rw [history_eq] at member
  obtain ⟨_, _, _, reached, _⟩ :=
    exists_split_of_mem_trace (stops_result builtins complete) member
  exact kept.visits (grows_origin builtins).sound (kept.origin builtins held)
    reached

theorem Checking.stops_of_supported {known : Analysis}
    (supported : known.checking.Supported known.table)
    (acyclic : tree.Acyclic) (complete : tree.forest.Complete) :
    (tree.stops.map Prod.snd).foldlM (step tree known.table) known.checking =
      .ok (known.checking.walked tree known.table tree.forest) := by
  rw [Tree.stops, Forest.map_snd_stops]
  exact ((steps (Analysis.linked_of_acyclic acyclic complete)).traverse
    complete supported).1

theorem Checking.stops_result (builtins : Bool) (acyclic : tree.Acyclic)
    (complete : tree.forest.Complete) :
    (tree.stops.map Prod.snd).foldlM
        (step tree (Analysis.declared builtins tree).table)
        (Analysis.declared builtins tree).checking =
      .ok ((Analysis.declared builtins tree).checking.walked tree
        (Analysis.declared builtins tree).table tree.forest) :=
  stops_of_supported (Analysis.sound_checking builtins tree).toSupported
    acyclic complete

theorem Checking.exists_visit (builtins : Bool) (acyclic : tree.Acyclic)
    (complete : tree.forest.Complete) {route : Route} {visit : Visit}
    (stop : (route, visit) ∈ tree.stops) :
    ∃ checking, (checking, route, visit) ∈
      history (Analysis.declared builtins tree) tree := by
  rw [history_eq]
  exact exists_mem_trace (stops_result builtins acyclic complete) stop

theorem Checking.exists_mem_history (builtins : Bool)
    (single : tree.SinglePath) (complete : tree.forest.Complete)
    {route : Route} {visit : Visit} (stop : (route, visit) ∈ tree.stops) :
    ∃ checking, (checking, route, visit) ∈
      history (Analysis.declared builtins tree) tree :=
  exists_visit builtins single.acyclic complete stop

theorem Checking.follows_at {builtins : Bool} (acyclic : tree.Acyclic)
    (complete : tree.forest.Complete) {checking : Checking} {route : Route}
    {visit : Visit} (member : (checking, route, visit) ∈
      history (Analysis.declared builtins tree) tree) :
    checking.Sound (Analysis.declared builtins tree).table ∧
      Follows (Analysis.declared builtins tree).facts checking := by
  rw [history_eq] at member
  obtain ⟨before, after, split, reached, _⟩ := exists_split_of_mem_trace
    (stops_result builtins acyclic complete) member
  have linked := Analysis.linked_of_acyclic acyclic complete
  apply trace_induction reached (motive := fun state _ =>
    state.Sound (Analysis.declared builtins tree).table ∧
      Follows (Analysis.declared builtins tree).facts state)
  · exact ⟨Analysis.sound_checking builtins tree, rfl, rfl, rfl⟩
  · rintro found next ⟨along, visit⟩ past stop made ⟨sound, follows⟩
    have listed : (along, visit) ∈ tree.stops := by
      rw [split]
      exact List.mem_append_left _ stop
    cases visit with
    | enter site =>
        cases (step_enter sound.toSupported site).symm.trans made
        exact ⟨sound.entered site, follows_entered _ follows site⟩
    | leave site =>
        have within := linked site (Forest.mem_sites_of_mem_stops
          (Forest.leave_mem_stops_iff.mp listed))
        cases (step_leave sound.toSupported within).symm.trans made
        exact ⟨sound.left site, follows_left _ _ follows site⟩
    | missing fault => cases made

theorem Declaring.standing (builtins : Bool) (single : tree.SinglePath)
    (complete : tree.forest.Complete) (shaped : tree.forest.FunctionsShaped)
    {declaring : Declaring} {route : Route} {site : Site}
    (member : (declaring, route, Visit.enter site) ∈ history builtins tree) :
    Standing (Analysis.declared builtins tree).facts
      (Analysis.declared builtins tree).table declaring route site := by
  rw [history_eq] at member
  exact standing_of_mem_trace builtins single complete shaped member

theorem grounded (builtins : Bool) (single : tree.SinglePath)
    (complete : tree.forest.Complete) (shaped : tree.forest.FunctionsShaped) :
    Grounded (Analysis.declared builtins tree).facts
      (Analysis.declared builtins tree).table [] tree.forest where
  blocks {along site} stop block := by
    obtain ⟨declaring, member⟩ :=
      Declaring.exists_mem_history builtins complete stop
    have standing := Declaring.standing builtins single complete shaped member
    exact standing.parent_of_block block
  uses {along site name} stop use := by
    obtain ⟨declaring, member⟩ :=
      Declaring.exists_mem_history builtins complete stop
    have standing := Declaring.standing builtins single complete shaped member
    rw [standing.unresolved use]
    cases hit : declaring.table.resolve declaring.current name with
    | none => exact .inl rfl
    | some found =>
        have grown := (Declaring.grows_entered standing.sound site).table.trans
          standing.grown
        refine .inr ⟨_, standing.current_of_use use, ?_⟩
        apply grown.resolve_isSome standing.sound.coherent
          (Analysis.sound_last builtins tree).coherent standing.sound.current
        rw [hit]
        rfl

theorem placed (builtins : Bool) (single : tree.SinglePath)
    (complete : tree.forest.Complete) (shaped : tree.forest.FunctionsShaped) :
    Checking.Placed (Analysis.declared builtins tree).facts
      (Analysis.declared builtins tree).table
      (Analysis.declared builtins tree).checking [] tree.forest where
  grounded := grounded builtins single complete shaped
  follows := ⟨rfl, rfl, rfl⟩
  around := rfl

theorem ready (builtins : Bool) (single : tree.SinglePath)
    (complete : tree.forest.Complete) (shaped : tree.forest.FunctionsShaped) :
    Checking.Ready tree (Analysis.declared builtins tree).table
      (Analysis.declared builtins tree).facts
      ((Analysis.declared builtins tree).checked tree).facts
      (Analysis.declared builtins tree).checking [] tree.forest where
  sound := Analysis.sound_checking builtins tree
  placed := placed builtins single complete shaped
  noted :=
    { distinct := single.unfolds.nodup_ids single fun _ => .start
      start := fun _ => .refl _ _
      finish := fun _ => .refl _ _ }

theorem Checking.standing (builtins : Bool) (single : tree.SinglePath)
    (complete : tree.forest.Complete) (shaped : tree.forest.FunctionsShaped)
    {checking : Checking} {route : Route} {site : Site}
    (member : (checking, route, Visit.leave site) ∈
      history (Analysis.declared builtins tree) tree) :
    Standing tree (Analysis.declared builtins tree).table
      (Analysis.declared builtins tree).facts
      ((Analysis.declared builtins tree).checked tree).facts.types checking
      route site := by
  rw [history_eq] at member
  obtain ⟨_, _, _, _, _, reaches, rfl⟩ :=
    (steps (Analysis.linked single complete)).reaches_of_leave complete
      (Analysis.sound_checking builtins tree).toSupported member
  exact ((ready builtins single complete shaped).of_reaches reaches).standing
    (Analysis.untyped builtins tree)

theorem follows_checked (builtins : Bool) (single : tree.SinglePath)
    (complete : tree.forest.Complete) (shaped : tree.forest.FunctionsShaped) :
    Checking.Follows (Analysis.declared builtins tree).facts
      ((Analysis.declared builtins tree).checking.walked tree
        (Analysis.declared builtins tree).table tree.forest) :=
  (Checking.steady _ _ _ _ (placed builtins single complete shaped)).2

theorem exists_passesAt (builtins : Bool) (single : tree.SinglePath)
    (complete : tree.forest.Complete) {route : Route} {site : Site}
    (leads : tree.Leads tree.root route site.id)
    (found : tree.node site.id = .ok site.node) :
    ∃ declaring checking, PassesAt builtins (Analysis.declared builtins tree)
      tree route site declaring checking := by
  have stop := (Tree.mem_stops_iff single).mpr ⟨leads, found⟩
  obtain ⟨declaring, entered⟩ :=
    Declaring.exists_mem_history builtins complete stop
  obtain ⟨checking, left⟩ := Checking.exists_mem_history builtins single
    complete (Forest.leave_mem_stops_iff.mpr stop)
  exact ⟨declaring, checking, leads, found, entered, left⟩

namespace PassesAt

variable {builtins : Bool} {route : Route} {site : Site}
  {declaring : Declaring} {checking : Checking} {name : String}

theorem same_scope (passes : PassesAt builtins
      (Analysis.declared builtins tree) tree route site declaring checking)
    (single : tree.SinglePath) (complete : tree.forest.Complete)
    (shaped : tree.forest.FunctionsShaped)
    (use : site.node.kind.use? = some name) :
    declaring.current = checking.current ∧
      (Analysis.declared builtins tree).facts.scopeAround route.ancestors =
        some declaring.current := by
  have before := (Declaring.standing builtins single complete shaped
    passes.entered).current_of_use use
  have after := (Checking.standing builtins single complete shaped
    passes.left).current (NodeKind.isBlock_of_use? use)
  exact ⟨Option.some.inj (before.symm.trans after), before⟩

theorem settled (passes : PassesAt builtins
      (Analysis.declared builtins tree) tree route site declaring checking)
    (complete : tree.forest.Complete)
    (tidy : tree.forest.Tidy (.chain true))
    (use : site.node.kind.use? = some name) :
    SymbolTable.Settled (· = ScopeId.global) declaring.table
      (Analysis.declared builtins tree).table := by
  have member := passes.entered
  rw [Declaring.history_eq] at member
  obtain ⟨_, _, _, _, reaches⟩ := (Declaring.steps _).reaches_of_enter complete
    (Declaring.grows_origin builtins).sound member
  obtain ⟨_, _, current, idle⟩ := Declaring.origin_fields builtins
  refine Declaring.settled_at_use (.chain tidy
    (Declaring.grows_origin builtins).sound idle (fun _ => current) ?_) reaches
    use
  exact .refl _ _

theorem resolution (passes : PassesAt builtins
      (Analysis.declared builtins tree) tree route site declaring checking)
    (single : tree.SinglePath) (complete : tree.forest.Complete)
    (tidy : tree.forest.Tidy (.chain true))
    (use : site.node.kind.use? = some name) :
    (∃ symbol, declaring.Notes site symbol ∧
        (Analysis.declared builtins tree).table.resolve checking.current name =
          some symbol ∧
        (Analysis.declared builtins tree).facts.unresolved.contains site.id =
          false) ∨
      declaring.table.lookup declaring.current name = .ok none ∧
        (Analysis.declared builtins tree).facts.unresolved.contains site.id =
          true := by
  have standing := Declaring.standing builtins single complete
    tidy.functionsShaped passes.entered
  have marked := standing.unresolved use
  have looked := SymbolTable.lookup_eq standing.sound.coherent
    standing.sound.current name
  cases hit : declaring.table.resolve declaring.current name with
  | none =>
      rw [hit] at marked looked
      exact .inr ⟨looked, marked⟩
  | some symbol =>
      rw [hit] at marked
      refine .inl ⟨symbol, ⟨?_, ?_⟩, ?_, marked⟩
      · obtain ⟨entry, stored⟩ := SymbolTable.exists_of_resolve hit
        exact ⟨entry, SymbolTable.symbol_eq_ok stored⟩
      · rw [Declaring.step_enter standing.sound, Declaring.entered_use use,
          Declaring.withUse, hit]
      · rw [← (passes.same_scope single complete tidy.functionsShaped use).1]
        exact (passes.settled complete tidy use).resolve
          standing.sound.coherent (Analysis.sound_last builtins tree).coherent
          standing.sound.current hit

end PassesAt

end

end CMinusAnalysis
