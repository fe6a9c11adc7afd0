import CMinusAnalysis.Proofs.Analysis.Passes
import CMinusAnalysis.Proofs.Declaring.Scopes

namespace CMinusAnalysis

/-- The nodes that have a scope of their own, in the order of a walk. -/
def Tree.scopeOwners (tree : Tree) : List (Route × Site) :=
  (tree.stops.filterMap Forest.entry?).filter opensScope

def Tree.HasBlock (tree : Tree) (id : NodeId) : Prop :=
  ∃ route node, tree.Leads tree.root route id ∧ tree.node id = .ok node ∧
    node.kind.isBlock = true

/-- The node that owns the scope of a block: the function whose body it is, or
the block itself. -/
def Route.scopeOwner (route : Route) (block : Site) : Route × Site :=
  route.bodyOf?.getD (route, block)

/-- The scopes of the table and the record of blocks mirror the nesting of the
tree. -/
structure Mirrors (tree : Tree) (table : SymbolTable) (facts : Facts) :
    Prop where
  owners : ∀ {route : Route} {site : Site},
    (route, site) ∈ tree.scopeOwners ↔
      (tree.Leads tree.root route site.id ∧
        tree.node site.id = .ok site.node) ∧ opensScope (route, site) = true
  distinct : (tree.scopeOwners.map fun owner => owner.2.id).Nodup
  names : table.scopes.toList.map Scope.name =
    SymbolTable.globalName :: scopeNames 0 (tree.scopeOwners.map Prod.snd)
  parents : table.scopes.toList.map Scope.parent =
    none :: tree.scopeOwners.map fun owner =>
      facts.scopeAround owner.1.ancestors
  enclosed : ∀ owner ∈ tree.scopeOwners,
    (facts.scopeAround owner.1.ancestors).isSome = true
  blocks : ∀ {route : Route} {site : Site},
    tree.Leads tree.root route site.id → tree.node site.id = .ok site.node →
    site.node.kind.isBlock = true → ∃ position,
      tree.scopeOwners[position]? = some (route.scopeOwner site) ∧
      facts.blocks.get? site.id = some ⟨position + 1⟩
  recorded : ∀ {id : NodeId} {scope : ScopeId},
    facts.blocks.get? id = some scope → tree.HasBlock id
  injective : ∀ {left right : NodeId} {scope : ScopeId},
    facts.blocks.get? left = some scope →
    facts.blocks.get? right = some scope → left = right

namespace Route

variable {route left right : Route} {block here there : Site}

theorem scopeOwner_aside (aside : route.bodyOf? = none) :
    route.scopeOwner block = (route, block) := by
  rw [scopeOwner, aside, Option.getD_none]

theorem scopeOwner_body {function : Route × Site}
    (body : route.bodyOf? = some function) :
    route.scopeOwner block = function := by
  rw [scopeOwner, body, Option.getD_some]

theorem scopeOwner_ne {function : Route × Site}
    (block : here.node.kind.isBlock = true)
    (body : left.bodyOf? = some function) : function ≠ (right, here) := by
  rintro rfl
  have kind := (bodyOf?_eq_some_iff.mp body).2
  simp [NodeKind.isFunction_of_isBlock block] at kind

theorem scopeOwner_inj (block : here.node.kind.isBlock = true)
    (other : there.node.kind.isBlock = true)
    (same : left.scopeOwner here = right.scopeOwner there) : left = right := by
  cases inLeft : left.bodyOf? with
  | none =>
      rw [scopeOwner_aside inLeft] at same
      cases inRight : right.bodyOf? with
      | none =>
          rw [scopeOwner_aside inRight] at same
          exact (Prod.mk.inj same).1
      | some function =>
          rw [scopeOwner_body inRight] at same
          exact absurd same.symm (scopeOwner_ne block inRight)
  | some function =>
      rw [scopeOwner_body inLeft] at same
      cases inRight : right.bodyOf? with
      | none =>
          rw [scopeOwner_aside inRight] at same
          exact absurd same (scopeOwner_ne other inLeft)
      | some another =>
          rw [scopeOwner_body inRight] at same
          rw [(bodyOf?_eq_some_iff.mp inLeft).1, same,
            (bodyOf?_eq_some_iff.mp inRight).1]

end Route

namespace Tree

variable {tree : Tree}

theorem mem_scopeOwners_iff (single : tree.SinglePath) {route : Route}
    {site : Site} :
    (route, site) ∈ tree.scopeOwners ↔
      (tree.Leads tree.root route site.id ∧
        tree.node site.id = .ok site.node) ∧
      opensScope (route, site) = true := by
  rw [scopeOwners, List.mem_filter, ← mem_stops_iff single, List.mem_filterMap]
  constructor
  · rintro ⟨⟨⟨along, visit⟩, stop, entry⟩, opens⟩
    cases visit with
    | enter _ =>
        cases entry
        exact ⟨stop, opens⟩
    | leave _ => cases entry
    | missing _ => cases entry
  · rintro ⟨stop, opens⟩
    exact ⟨⟨_, stop, rfl⟩, opens⟩

theorem nodup_scopeOwners (single : tree.SinglePath) :
    (tree.scopeOwners.map fun owner => owner.2.id).Nodup := by
  have distinct := single.unfolds.nodup_ids single fun _ => .start
  rw [← tree.forest.map_entries []] at distinct
  exact distinct.sublist (List.filter_sublist.map _)

end Tree

namespace Declaring

variable {builtins : Bool} {tree : Tree} {state : Declaring} {route : Route}
  {site : Site} {opening : Opening}

theorem exists_ledger (complete : tree.forest.Complete) {visit : Visit}
    (member : (state, route, visit) ∈ history builtins tree) :
    ∃ past rest, history builtins tree = past ++ (state, route, visit) :: rest ∧
      Ledger state past := by
  rw [history_eq] at member ⊢
  obtain ⟨before, after, split, reached, _⟩ :=
    exists_split_of_mem_trace (stops_result builtins complete) member
  refine ⟨trace step (origin builtins) before,
    (trace step state ((route, visit) :: after)).tail, ?_,
    ledger_of_visits builtins reached⟩
  rw [split, trace_append reached]
  rfl

theorem exists_position (complete : tree.forest.Complete) {visit : Visit}
    (member : (state, route, visit) ∈ history builtins tree)
    (opened : opened? (state, route, visit) = some opening) :
    ∃ position,
      (openings (history builtins tree))[position]? = some opening ∧
      state.table.scopes.size = position + 1 := by
  obtain ⟨past, rest, split, ledger⟩ := exists_ledger complete member
  refine ⟨(openings past).length, ?_, ledger.size⟩
  rw [split, openings, List.filterMap_append, List.filterMap_cons, opened]
  simp [openings]

section

variable (single : tree.SinglePath) (complete : tree.forest.Complete)
  (shaped : tree.forest.FunctionsShaped)

include single complete shaped

theorem map_openings (builtins : Bool) :
    (openings (history builtins tree)).map (fun opening =>
      (opening.route, opening.site)) = tree.scopeOwners := by
  rw [openings, List.map_filterMap, Tree.scopeOwners, List.filter_filterMap,
    ← map_snd_trace (stops_result builtins complete), List.filterMap_map,
    ← history_eq]
  -- The pass decides by what is awaited, the tree by the route to the node.
  apply List.filterMap_congr
  rintro ⟨state, route, visit⟩ member
  cases visit with
  | leave site => rfl
  | missing fault => rfl
  | enter site =>
      have opens := (standing builtins single complete shaped
        member).opensScope_eq
      simp only [opened?, opens, Function.comp_apply, Forest.entry?]
      cases owns : opensScope (route, site) <;> simp [Option.filter, owns]

theorem scopeAround_opening
    (listed : opening ∈ openings (history builtins tree)) :
    (last builtins tree).facts.scopeAround opening.route.ancestors =
      some opening.parent := by
  obtain ⟨⟨state, route, visit⟩, member, opened⟩ := List.mem_filterMap.mp listed
  cases visit with
  | leave site => cases opened
  | missing fault => cases opened
  | enter site =>
      have standing := standing builtins single complete shaped member
      rw [opened?, standing.opensScope_eq] at opened
      split at opened
      · next opens =>
          cases opened
          exact (standing.current_of_opensScope opens).2
      · cases opened

theorem exists_owner_position
    (member : (state, route, Visit.enter site) ∈ history builtins tree)
    (opens : opensScope (route, site) = true) :
    ∃ position, tree.scopeOwners[position]? = some (route, site) ∧
      state.table.scopes.size = position + 1 := by
  have standing := standing builtins single complete shaped member
  have opened : opened? (state, route, .enter site) =
      some ⟨site.node.name?.getD (toString state.blockCount), state.current,
        route, site⟩ := by
    rw [opened?, standing.opensScope_eq, opens, if_pos rfl]
  obtain ⟨position, listed, size⟩ := exists_position complete member opened
  refine ⟨position, ?_, size⟩
  rw [← map_openings single complete shaped builtins, List.getElem?_map, listed]
  rfl

theorem exists_function_of_body {above : Route} {function : Site}
    (member : (state, (function, .second) :: above, Visit.enter site) ∈
      history builtins tree)
    (kind : function.node.kind.isFunction = true) :
    ∃ before, (before, above, Visit.enter function) ∈ history builtins tree ∧
      state.awaiting = some ⟨before.table.scopes.size⟩ := by
  have sound := (grows_origin builtins).sound
  have stop : (above, Visit.enter function) ∈ tree.stops := by
    rw [history_eq] at member
    have leads := ((Tree.mem_stops_iff single).mp (mem_of_mem_trace member)).1
    cases leads with
    | step leads found follows =>
        exact (Tree.mem_stops_iff single).mpr ⟨leads, found⟩
  obtain ⟨before, entered⟩ := exists_mem_history builtins complete stop
  have visited := entered
  rw [history_eq] at member visited
  obtain ⟨_, _, _, _, toBody⟩ :=
    (steps _).reaches_of_enter complete sound member
  obtain ⟨_, _, _, _, toFunction⟩ :=
    (steps _).reaches_of_enter complete sound visited
  obtain ⟨_, parameters, third, rest, earlier, rfl⟩ :=
    toBody.before_second (by simp)
  obtain ⟨rfl, same⟩ := toFunction.unique earlier
  have ofFunction := earlier.invariant
    (fun _ _ forest => forest.FunctionsShaped) (fun shaped => shaped.parts)
    shaped
  refine ⟨before, entered, ?_⟩
  -- Only parameters are met in between, and they leave alone what is awaited.
  cases ofFunction with
  | other other => simp [kind] at other
  | function _ declared =>
      refine ((current_leaves _ declared flat_isParameter).2).trans ?_
      exact awaiting_entered (grows_last complete entered).1 kind

theorem exists_block_position (builtins : Bool) (site : Site)
    (leads : tree.Leads tree.root route site.id)
    (found : tree.node site.id = .ok site.node)
    (block : site.node.kind.isBlock = true) :
    ∃ position, tree.scopeOwners[position]? = some (route.scopeOwner site) ∧
      (last builtins tree).facts.blocks.get? site.id =
        some ⟨position + 1⟩ := by
  obtain ⟨state, member⟩ := exists_mem_history builtins complete
    ((Tree.mem_stops_iff single).mpr ⟨leads, found⟩)
  have standing := standing builtins single complete shaped member
  have recorded := standing.recorded.blocks
  rw [entered_block block] at recorded
  cases body : route.bodyOf? with
  | none =>
      have opens : opensScope (route, site) = true := by
        simp [opensScope, block, body]
      have idle := (standing.current_of_opensScope opens).1
      obtain ⟨position, owner, size⟩ :=
        exists_owner_position single complete shaped member opens
      refine ⟨position, by rw [owner, Route.scopeOwner_aside body], ?_⟩
      refine recorded.trans ?_
      simp [withBlock, idle, Facts.setBlock, NodeTable.get?_insert, size]
  | some function =>
      obtain ⟨rfl, kind⟩ := Route.bodyOf?_eq_some_iff.mp body
      obtain ⟨before, entered, awaits⟩ :=
        exists_function_of_body single complete shaped member kind
      obtain ⟨position, owner, size⟩ := exists_owner_position single complete
        shaped entered (by simp [opensScope, kind])
      refine ⟨position, by rw [owner, Route.scopeOwner_body body], ?_⟩
      refine recorded.trans ?_
      simp [withBlock, awaits, Facts.setBlock, NodeTable.get?_insert, size]

end

theorem hasBlock_of_recorded (single : tree.SinglePath)
    (complete : tree.forest.Complete) {id : NodeId} {scope : ScopeId}
    (recorded : (last builtins tree).facts.blocks.get? id = some scope) :
    tree.HasBlock id := by
  refine (visits_induction (grows_origin builtins).sound
    (stops_result builtins complete) (motive := fun state _ =>
      ∀ id scope, state.facts.blocks.get? id = some scope →
        tree.HasBlock id) ?_ ?_ ?_).2 id scope recorded
  · intro id scope recorded
    rw [(origin_fields builtins).1] at recorded
    simp [Facts.blank] at recorded
  · intro state route site past stop sound known id scope recorded
    by_cases own : site.id = id ∧ site.node.kind.isBlock = true
    · obtain ⟨rfl, block⟩ := own
      obtain ⟨leads, found⟩ := (Tree.mem_stops_iff single).mp stop
      exact ⟨route, site.node, leads, found, block⟩
    · apply known id scope
      rw [← recorded]
      cases block : site.node.kind.isBlock with
      | false => rw [blocks_of_unblocked state block]
      | true =>
          have other : id ≠ site.id := fun same => own ⟨same.symm, block⟩
          exact (facts_entered state site other).blocks.symm
  · intro state route site past stop sound known id scope recorded
    rw [facts_left] at recorded
    exact known id scope recorded

theorem block_unique (single : tree.SinglePath)
    (complete : tree.forest.Complete)
    (shaped : tree.forest.FunctionsShaped) {left right : NodeId}
    {scope : ScopeId}
    (inLeft : (last builtins tree).facts.blocks.get? left = some scope)
    (inRight : (last builtins tree).facts.blocks.get? right = some scope) :
    left = right := by
  obtain ⟨along, here, leads, found, block⟩ :=
    hasBlock_of_recorded single complete inLeft
  obtain ⟨beside, there, follows, known, other⟩ :=
    hasBlock_of_recorded single complete inRight
  obtain ⟨position, owner, recorded⟩ := exists_block_position single complete
    shaped builtins ⟨left, here⟩ leads found block
  obtain ⟨place, another, again⟩ := exists_block_position single complete
    shaped builtins ⟨right, there⟩ follows known other
  -- One scope is one place in the list of owners, and so one owner.
  have same : position = place := by
    cases recorded.symm.trans inLeft
    cases again.symm.trans inRight
    rfl
  rw [same, another] at owner
  have routes := Route.scopeOwner_inj block other (Option.some.inj owner).symm
  rw [routes] at leads
  exact leads.unique follows

theorem mirrors_last (builtins : Bool) (single : tree.SinglePath)
    (complete : tree.forest.Complete)
    (shaped : tree.forest.FunctionsShaped) :
    Mirrors tree (last builtins tree).table (last builtins tree).facts := by
  have ledger := ledger_of_visits builtins (stops_result builtins complete)
  rw [← history_eq] at ledger
  have owners := map_openings single complete shaped builtins
  have around {opening : Opening}
      (listed : opening ∈ openings (history builtins tree)) :=
    scopeAround_opening single complete shaped listed
  refine ⟨Tree.mem_scopeOwners_iff single, Tree.nodup_scopeOwners single, ?_,
    ?_, ?_, exists_block_position single complete shaped builtins _,
    hasBlock_of_recorded single complete,
    block_unique single complete shaped⟩
  · rw [SymbolTable.map_name_scopes, ledger.headers, ← owners]
    simp only [List.map_cons, List.map_map, Function.comp_def]
    exact congrArg _ ledger.names
  · rw [SymbolTable.map_parent_scopes, ledger.headers, ← owners]
    simp only [List.map_cons, List.map_map, Function.comp_def]
    refine congrArg _ (List.map_congr_left fun opening listed => ?_)
    exact (around listed).symm
  · rw [← owners]
    intro owner member
    obtain ⟨opening, listed, rfl⟩ := List.mem_map.mp member
    rw [around listed]
    rfl

end Declaring

/-- After the declaring pass there are the outermost scope, one scope for every
function and one for every block that is not a body, and no others. Each lies in
the scope of the nearest block above it, exactly the blocks have a scope
recorded, a body that of its function, and no two blocks share one. -/
theorem scopes_mirror_nesting (builtins : Bool) {tree : Tree}
    (single : tree.SinglePath) (shaped : tree.forest.FunctionsShaped) :
    (tree.InRange → ∃ final,
        (Declaring.run builtins tree).result = .ok final) ∧
      ∀ final, (Declaring.run builtins tree).result = .ok final →
        Mirrors tree final.table final.facts := by
  refine ⟨fun inRange => ⟨_, Declaring.run_result builtins
    (Analysis.complete single inRange)⟩, ?_⟩
  intro final ran
  have complete := Declaring.complete_of_run ran
  cases (Declaring.run_result builtins complete).symm.trans ran
  exact Declaring.mirrors_last builtins single complete shaped

/-- A function with a block in its body, in which the function is declared
again, and two more blocks: one beside the body, one beside the function. -/
def nestedScopes : Tree where
  nodes := #[
    { kind := .declaration (.function "f" (some .void)), line := 1,
      first := some ⟨1⟩, second := some ⟨2⟩, sibling := some ⟨7⟩ },
    { kind := .parameter ⟨some "a", some .int, false⟩, line := 1 },
    { kind := .statement .compound, line := 2, second := some ⟨3⟩,
      sibling := some ⟨6⟩ },
    { kind := .statement .compound, line := 3, first := some ⟨4⟩ },
    { kind := .declaration (.function "f" (some .int)), line := 4,
      second := some ⟨5⟩ },
    { kind := .statement .compound, line := 5 },
    { kind := .statement .compound, line := 6 },
    { kind := .statement .compound, line := 7 }]
  root := some ⟨0⟩

theorem nestedScopes_unfolds :
    nestedScopes.Unfolds nestedScopes.root nestedScopes.forest := by
  repeat constructor

theorem nestedScopes_complete : nestedScopes.forest.Complete := by
  repeat constructor

theorem nestedScopes_single : nestedScopes.SinglePath :=
  Tree.singlePath_of_unfolds nestedScopes_unfolds nestedScopes_complete
    (by decide)

theorem nestedScopes_inRange : nestedScopes.InRange :=
  Tree.inRange_of_unfolds nestedScopes_unfolds nestedScopes_complete

theorem nestedScopes_shaped : nestedScopes.forest.FunctionsShaped :=
  .function rfl (.cons rfl .nil) rfl .nil
    (.other rfl (.function rfl .nil rfl .nil .nil .nil .nil .nil) .nil .nil
      .nil) .nil (.leaf rfl) (.leaf rfl)

theorem mirror_at_nested_scopes :
    nestedScopes.SinglePath ∧ nestedScopes.forest.FunctionsShaped ∧
      ∃ final, (Declaring.run true nestedScopes).result = .ok final ∧
        final.table.scopes.toList.map Scope.name =
          ["global", "f", "0", "f", "1", "2"] ∧
        final.table.scopes.toList.map Scope.parent =
          [none, some ⟨0⟩, some ⟨1⟩, some ⟨2⟩, some ⟨0⟩, some ⟨0⟩] ∧
        final.facts.blocks.get? ⟨5⟩ = some ⟨3⟩ := by
  refine ⟨nestedScopes_single, nestedScopes_shaped, ?_⟩
  obtain ⟨runs, mirrors⟩ :=
    scopes_mirror_nesting true nestedScopes_single nestedScopes_shaped
  obtain ⟨final, ran⟩ := runs nestedScopes_inRange
  have names := (mirrors final ran).names
  have outcome : (Declaring.run true nestedScopes).result.map (fun final =>
      (final.table.scopes.toList.map Scope.parent,
        final.facts.blocks.get? ⟨5⟩)) =
      .ok ([none, some ⟨0⟩, some ⟨1⟩, some ⟨2⟩, some ⟨0⟩, some ⟨0⟩],
        some ⟨3⟩) := by
    decide +kernel
  rw [ran] at outcome
  simp only [Except.map, Except.ok.injEq, Prod.mk.injEq] at outcome
  exact ⟨final, ran, names.trans (by decide +kernel), outcome⟩

end CMinusAnalysis
