import CMinusAnalysis.Proofs.Analysis.StorageSlots
import CMinusAnalysis.Proofs.Symbol.Buckets
import CMinusAnalysis.Proofs.Tree.Order

namespace CMinusAnalysis

/-! What can go wrong in an analysis. The states of both passes hold no handle
into the symbol table that is not good, and the way out of every scope ends at
the outermost one, so nothing is left to fail at but a handle without a node in
the program itself. -/

/-- Every handle that the scopes and symbols of a table hold is good, and every
scope but the first lies inside an older one. -/
structure SymbolTable.Intact (table : SymbolTable) : Prop where
  outermost : ∃ scope, table.scope ScopeId.global = .ok scope ∧
    scope.parent = none
  nested : ∀ {id : ScopeId} {scope : Scope}, table.scope id = .ok scope →
    id ≠ ScopeId.global →
    ∃ parent, scope.parent = some parent ∧ parent.index < id.index
  buckets : ∀ {id : ScopeId} {scope : Scope}, table.scope id = .ok scope →
    ∀ symbol ∈ scope.symbols, symbol.index < table.symbols.size
  owners : ∀ symbol ∈ table.symbols.toList, table.Has symbol.scope

/-- From every scope the way out ends at the outermost one, so a lookup comes
to an end by itself, and with no symbol but one of the table. -/
structure SymbolTable.Searchable (table : SymbolTable) : Prop where
  outward : ∀ {id : ScopeId}, table.Has id →
    (table.outward id).getLast? = some ScopeId.global
  unbounded : ∀ {id : ScopeId} {steps : Nat} (name : String), table.Has id →
    id.index < steps →
    table.lookupWithin name steps id = table.lookup id name
  found : ∀ {id : ScopeId} (name : String), table.Has id →
    ∃ hit, table.lookup id name = .ok hit ∧
      ∀ symbol ∈ hit, symbol.index < table.symbols.size

/-- Every handle into a table that the facts hold is good. -/
structure Facts.Within (table : SymbolTable) (facts : Facts) : Prop where
  blocks : ∀ {id : NodeId}, ∀ scope ∈ facts.blocks.get? id, table.Has scope
  functions : ∀ {id : NodeId}, ∀ function ∈ facts.functions.get? id,
    function.index < table.symbols.size

structure Declaring.Safe (state : Declaring) : Prop where
  intact : state.table.Intact
  searchable : state.table.Searchable
  facts : state.facts.Within state.table
  current : state.table.Has state.current
  awaiting : ∀ scope ∈ state.awaiting, state.table.Has scope

structure Checking.Safe (table : SymbolTable) (state : Checking) : Prop where
  facts : state.facts.Within table
  current : table.Has state.current
  function : ∀ function ∈ state.function,
    function.index < table.symbols.size
  outer : ∀ {function : SymbolId}, some function ∈ state.outer →
    function.index < table.symbols.size

namespace SymbolTable

variable {table : SymbolTable}

theorem getLast?_outward (coherent : table.Coherent) {id : ScopeId}
    (has : table.Has id) :
    (table.outward id).getLast? = some ScopeId.global := by
  apply coherent.scope_induction has
  · rw [outward_global coherent]
    rfl
  · intro id parent inside induction
    rw [outward_inner coherent inside, List.getLast?_cons, induction]
    rfl

theorem Coherent.searchable (coherent : table.Coherent) :
    table.Searchable where
  outward has := getLast?_outward coherent has
  unbounded := by
    intro id steps name has enough
    rw [lookup_eq coherent has, coherent.nested.lookupWithin_eq name has,
      outwardWithin_eq_outward coherent enough,
      resolve_eq_outward coherent (Nat.le_of_lt has)]
  found := by
    intro id name has
    refine ⟨table.resolve id name, lookup_eq coherent has name, ?_⟩
    intro symbol hit
    obtain ⟨_, stored⟩ := exists_of_resolve hit
    exact (Array.getElem?_eq_some_iff.mp stored).1

theorem Filed.intact (filed : table.Filed) (coherent : table.Coherent)
    (global : table.Has ScopeId.global) : table.Intact where
  outermost := by
    obtain ⟨scope, stored⟩ := exists_scope global
    have outermost := coherent.global_parent?
    rw [parent?, stored] at outermost
    exact ⟨scope, scope_eq_ok stored, outermost⟩
  nested := by
    intro id scope stored inner
    have held := fetch_eq_ok_iff.mp stored
    have has := (Array.getElem?_eq_some_iff.mp held).1
    obtain ⟨parent, inside⟩ :=
      Option.isSome_iff_exists.mp (coherent.enclosed has inner)
    have older := coherent.older inside
    rw [parent?, held] at inside
    exact ⟨parent, inside, older⟩
  buckets stored _ member :=
    filed.symbol_lt (fetch_eq_ok_iff.mp stored) member
  owners := filed.owners

end SymbolTable

namespace Declaring

variable {state : Declaring}

theorem kept_filed : Kept SymbolTable.Filed where
  opened name parent filed := filed.opened name parent
  declared name type line isFunction has filed :=
    filed.declared has name type line isFunction
  used target line filed :=
    filed.modifySymbol (Symbol.bare_addLine · line) target
  signed target type filed :=
    filed.modifySymbol (Symbol.bare_addParameter · type) target

theorem filed_bare : bare.table.Filed where
  toDense := dense_bare
  buckets := by
    intro id scope stored
    obtain ⟨inside, rfl⟩ := Array.getElem?_eq_some_iff.mp stored
    have first : id.index = 0 := by
      simpa [bare] using inside
    simp [bare, SymbolTable.ownedIds, Scope.symbols, first]

theorem Sound.safe (sound : state.Sound) (filed : state.table.Filed) :
    state.Safe where
  intact := filed.intact sound.coherent sound.global
  searchable := sound.coherent.searchable
  facts := ⟨sound.blocks, sound.functions⟩
  current := sound.current
  awaiting := sound.awaiting

theorem Sound.step (sound : state.Sound) (filed : state.table.Filed)
    {next : Declaring} {visit : Visit} (made : state.step visit = .ok next) :
    next.Sound ∧ next.table.Filed := by
  cases visit with
  | enter site =>
      cases (step_enter sound site).symm.trans made
      exact ⟨(grows_entered sound site).sound,
        kept_filed.entered sound site filed⟩
  | leave site =>
      cases (step_leave sound site).symm.trans made
      refine ⟨(grows_left sound site).sound, ?_⟩
      rw [table_left]
      exact filed
  | missing fault => cases made

theorem Sound.fails_at (sound : state.Sound) {visit : Visit} {fault : Fault}
    (failed : state.step visit = .error fault) : visit = .missing fault := by
  cases visit with
  | enter site => cases (step_enter sound site).symm.trans failed
  | leave site => cases (step_leave sound site).symm.trans failed
  | missing other =>
      cases failed
      rfl

theorem sound_at {builtins : Bool} {tree : Tree} {declaring : Declaring}
    {route : Route} {visit : Visit}
    (member : (declaring, route, visit) ∈ history builtins tree) :
    declaring.Sound ∧ declaring.table.Filed := by
  rw [history_eq] at member
  refine holds_of_mem_trace (motive := fun state =>
    state.Sound ∧ state.table.Filed) ?_ ?_ member
  · exact ⟨(grows_origin builtins).sound, kept_filed.origin builtins filed_bare⟩
  · exact fun ⟨sound, filed⟩ made => sound.step filed made

theorem run_eq_error (builtins : Bool) {tree : Tree} (acyclic : tree.Acyclic)
    {id : NodeId} (lost : tree.dangling? tree.forest = some id) :
    (run builtins tree).result = .error ⟨tree.size, id.index⟩ := by
  simp only [run, Run.result_bind, start_result, Run.result_record, ok_bind]
  rw [Tree.walk_eq_foldlM, result_foldlM]
  exact acyclic.unfolds.traverse_eq_error (steps _) (fun _ _ => rfl)
    (grows_origin builtins).sound lost

end Declaring

theorem Checking.exists_step {builtins : Bool} {tree : Tree}
    (acyclic : tree.Acyclic) (complete : tree.forest.Complete)
    {checking : Checking} {route : Route} {visit : Visit}
    (member : (checking, route, visit) ∈
      history (Analysis.declared builtins tree) tree) :
    ∃ next, checking.step tree (Analysis.declared builtins tree).table visit =
      .ok next := by
  rw [history_eq] at member
  obtain ⟨_, _, _, _, onward⟩ := exists_split_of_mem_trace
    (stops_result builtins acyclic complete) member
  rw [List.map_cons, List.foldlM_cons] at onward
  obtain ⟨next, made, _⟩ := bind_eq_ok_iff.mp onward
  exact ⟨next, made⟩

theorem Facts.Within.supported {known : Analysis}
    (within : known.facts.Within known.table) (nested : known.table.Nested)
    (global : known.table.Has ScopeId.global) :
    known.checking.Supported known.table where
  nested := nested
  current := global
  blocks := within.blocks
  functions := within.functions
  function := by simp [Analysis.checking]
  outer := by simp [Analysis.checking]

theorem Checking.Sound.safe {table : SymbolTable} {state : Checking}
    (sound : state.Sound table) : state.Safe table where
  facts := ⟨sound.blocks, sound.functions⟩
  current := sound.current
  function := sound.function
  outer := sound.outer

namespace Analysis

variable {tree : Tree}

theorem analyze_eq_error (config : Config) (acyclic : tree.Acyclic)
    {id : NodeId} (lost : tree.dangling? tree.forest = some id) :
    (analyze config tree).result = .error ⟨tree.size, id.index⟩ := by
  simp only [analyze, declare, Run.result_bind,
    Declaring.run_eq_error config.builtins acyclic lost]
  rfl

theorem analyze_eq_error_iff (config : Config) (acyclic : tree.Acyclic)
    {fault : Fault} :
    (analyze config tree).result = .error fault ↔
      ∃ id, tree.dangling? tree.forest = some id ∧
        fault = ⟨tree.size, id.index⟩ := by
  constructor
  · intro failed
    cases lost : tree.dangling? tree.forest with
    | none =>
        have complete := acyclic.unfolds.complete_of_dangling? lost
        cases (analyze_of_acyclic config acyclic complete).symm.trans failed
    | some id =>
        have other := analyze_eq_error config acyclic lost
        cases other.symm.trans failed
        exact ⟨id, rfl, rfl⟩
  · rintro ⟨id, lost, rfl⟩
    exact analyze_eq_error config acyclic lost

theorem exists_error_iff (config : Config) (acyclic : tree.Acyclic) :
    (∃ fault, (analyze config tree).result = .error fault) ↔
      ∃ route id, tree.Leads tree.root route id ∧ tree.size ≤ id.index := by
  constructor
  · rintro ⟨fault, failed⟩
    obtain ⟨id, lost, _⟩ := (analyze_eq_error_iff config acyclic).mp failed
    obtain ⟨route, leads⟩ := acyclic.unfolds.mem_handles_iff.mp
      (List.mem_of_find?_eq_some lost)
    exact ⟨route, id, leads, by simpa using List.find?_some lost⟩
  · rintro ⟨route, id, leads, outside⟩
    cases lost : tree.dangling? tree.forest with
    | none =>
        have inside := acyclic.unfolds.inRange_iff_dangling?.mpr lost leads
        omega
    | some first => exact ⟨_, analyze_eq_error config acyclic lost⟩

end Analysis

/-- An analysis without a cycle in the program comes to an end by itself: its
walks and its lookups need no bound. It fails just when the root leads to a
handle without a node, and then at the first one in the order of the walk. At
every visit before that, and in all of the analysis if there is none, every
handle into the symbol table is good. -/
theorem fails_only_at_dangling_handles (config : Config) {tree : Tree}
    (acyclic : tree.Acyclic) :
    (∀ (σ : Type) (visit : σ → Visit → Run σ) (state : σ) (steps : Nat),
      tree.size < steps → tree.walkWithin visit steps tree.root state =
        tree.walk visit tree.root state) ∧
    (∀ id, id ∈ tree.forest.handles ↔
      ∃ route, tree.Leads tree.root route id) ∧
    ((∃ fault, (analyze config tree).result = .error fault) ↔
      ∃ route id, tree.Leads tree.root route id ∧ tree.size ≤ id.index) ∧
    (∀ fault, (analyze config tree).result = .error fault ↔
      ∃ id, tree.forest.handles.find? (fun id => tree.size ≤ id.index) =
          some id ∧ fault = ⟨tree.size, id.index⟩) ∧
    (∀ (state : Declaring) (route : Route) (visit : Visit),
      (state, route, visit) ∈ Declaring.history config.builtins tree →
      state.Safe ∧ ∀ fault, state.step visit = .error fault →
        visit = .missing fault) ∧
    (tree.InRange → ∃ declared analysis,
      (declare config tree).result = .ok declared ∧
      (analyze config tree).result = .ok analysis ∧
      analysis.table = declared.table ∧ analysis.table.Intact ∧
      analysis.table.Searchable ∧ analysis.facts.Within analysis.table ∧
      (∀ (state : Checking) (route : Route) (visit : Visit),
        (state, route, visit) ∈ Checking.history declared tree →
        state.Safe analysis.table ∧ ∃ next,
          state.step tree analysis.table visit = .ok next) ∧
      ∀ (route : Route) (site : Site), tree.Leads tree.root route site.id →
        tree.node site.id = .ok site.node → ∀ steps, tree.size < steps →
        tree.siblingsWithin steps site.node.first =
          tree.siblings site.node.first) := by
  refine ⟨fun _ visit state steps enough =>
      acyclic.walkWithin_eq enough visit state,
    fun _ => acyclic.unfolds.mem_handles_iff,
    Analysis.exists_error_iff config acyclic,
    fun _ => Analysis.analyze_eq_error_iff config acyclic, ?_, ?_⟩
  · intro state route visit member
    obtain ⟨sound, filed⟩ := Declaring.sound_at member
    exact ⟨sound.safe filed, fun _ failed => sound.fails_at failed⟩
  · intro inRange
    have complete := acyclic.unfolds.complete (fun _ => .start) inRange
    have sound := Analysis.sound_last config.builtins tree
    have filed := Declaring.kept_filed.last Declaring.filed_bare
      config.builtins complete
    have ended := Checking.sound_walked tree
      (Analysis.sound_checking config.builtins tree) tree.forest
    refine ⟨_, _, Analysis.declare_result config complete,
      Analysis.analyze_of_acyclic config acyclic complete, rfl,
      filed.intact sound.coherent sound.global, sound.coherent.searchable,
      ended.safe.facts, ?_, ?_⟩
    · intro state route visit member
      have good := (Checking.follows_at acyclic complete member).1
      exact ⟨good.safe, Checking.exists_step acyclic complete member⟩
    · intro route site leads found steps enough
      exact acyclic.siblingsWithin_eq inRange leads found enough

/-- A function whose body is also its sibling, so that the body is walked
twice. Its only statement links to a child and a sibling of choice. -/
def looseHandles (child next : Option NodeId) : Tree where
  nodes := #[
    { kind := .declaration (.function "f" (some .void)), line := 1,
      first := some ⟨1⟩, second := some ⟨2⟩, sibling := some ⟨2⟩ },
    { kind := .parameter ⟨some "a", some .int, true⟩, line := 1 },
    { kind := .statement .compound, line := 2, second := some ⟨3⟩ },
    { kind := .expression (.arrayIdentifier "a"), line := 3, first := child,
      sibling := next }]
  root := some ⟨0⟩

/-- Of two handles without a node the analysis fails at the one that it comes
to first, not at the lower one. Without them it has an outcome. -/
theorem loose_handles_fail_in_order :
    (analyze {} (looseHandles (some ⟨9⟩) (some ⟨4⟩))).result =
        .error ⟨4, 9⟩ ∧
      ∃ analysis, (analyze {} (looseHandles none none)).result =
        .ok analysis ∧ analysis.table.Intact := by
  have stray : (looseHandles (some ⟨9⟩) (some ⟨4⟩)).Acyclic := by
    apply Tree.acyclic_of_forward
    rintro ⟨_ | _ | _ | _ | _⟩ next node link found follows <;>
      cases found <;> cases link <;> cases follows <;> decide
  have tidy : (looseHandles none none).Acyclic := by
    apply Tree.acyclic_of_forward
    rintro ⟨_ | _ | _ | _ | _⟩ next node link found follows <;>
      cases found <;> cases link <;> cases follows <;> decide
  constructor
  · obtain ⟨_, _, _, fails, _⟩ := fails_only_at_dangling_handles {} stray
    exact (fails _).mpr ⟨⟨9⟩, by decide, rfl⟩
  · obtain ⟨_, _, _, _, _, ends⟩ := fails_only_at_dangling_handles {} tidy
    obtain ⟨_, analysis, _, ended, _, intact, _⟩ :=
      ends (Tree.inRange_of_unfolds tidy.unfolds (by repeat constructor))
    exact ⟨analysis, ended, intact⟩

end CMinusAnalysis
