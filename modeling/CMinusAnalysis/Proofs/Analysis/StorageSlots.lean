import CMinusAnalysis.Proofs.Analysis.Passes
import CMinusAnalysis.Proofs.Declaring.Declarations
import CMinusAnalysis.Proofs.Symbol.Storage

namespace CMinusAnalysis

namespace Declaring

theorem kept_dense : Kept SymbolTable.Dense where
  opened name parent dense := dense.opened name parent
  declared name type line isFunction has dense :=
    dense.declared has name type line isFunction
  used target line dense :=
    dense.modifySymbol (Symbol.bare_addLine · line) target
  signed target type dense :=
    dense.modifySymbol (Symbol.bare_addParameter · type) target

theorem dense_bare : bare.table.Dense where
  owners symbol member := by
    cases member
  slots := by
    intro id scope stored
    obtain ⟨inside, rfl⟩ := Array.getElem?_eq_some_iff.mp stored
    have first : id.index = 0 := by
      simpa [bare] using inside
    simp [bare, SymbolTable.owned, first]

theorem scope_of_step {before after : Declaring} {visit : Visit}
    (sound : before.Sound) (stepped : before.step visit = .ok after)
    (size : after.table.symbols.size = before.table.symbols.size)
    {id : ScopeId} {scope : Scope}
    (stored : before.table.scope id = .ok scope) :
    after.table.scope id = .ok scope := by
  cases visit with
  | enter site =>
      cases (step_enter sound site).symm.trans stepped
      exact scope_entered sound size stored
  | leave site =>
      cases (step_leave sound site).symm.trans stepped
      rw [table_left]
      exact stored
  | missing fault => cases stepped

end Declaring

/-- After the declaring pass the symbols of a scope, in order of creation, have
the slots 0, 1, 2 and so on, and the scope counts on where they end. So two
symbols never share scope and slot, and a visit that creates no symbol leaves
every counter as it was. -/
theorem storage_slots_dense (builtins : Bool) {tree : Tree}
    (acyclic : tree.Acyclic) (inRange : tree.InRange) :
    ∃ final, (Declaring.run builtins tree).result = .ok final ∧
      (∀ (id : ScopeId) (scope : Scope), final.table.scope id = .ok scope →
        (final.table.owned id).map Symbol.location =
            List.range (final.table.owned id).length ∧
          scope.nextLocation = (final.table.owned id).length) ∧
      (∀ (id : SymbolId) (symbol : Symbol),
        final.table.symbol id = .ok symbol → ∃ scope,
          final.table.scope symbol.scope = .ok scope) ∧
      (∀ (left right : SymbolId) (one other : Symbol),
        final.table.symbol left = .ok one →
        final.table.symbol right = .ok other → one.scope = other.scope →
        one.location = other.location → left = right) ∧
      ∀ (before after : Declaring) (route : Route) (visit : Visit),
        (before, route, visit) ∈ Declaring.history builtins tree →
        before.step visit = .ok after →
        after.table.symbols.size = before.table.symbols.size →
        ∀ (id : ScopeId) (scope : Scope), before.table.scope id = .ok scope →
          after.table.scope id = .ok scope := by
  have complete := acyclic.unfolds.complete (fun _ => .start) inRange
  have dense := Declaring.kept_dense.last Declaring.dense_bare builtins complete
  refine ⟨Declaring.last builtins tree,
    Declaring.run_result builtins complete, ?_, ?_, ?_, ?_⟩
  · intro id scope stored
    have held := fetch_eq_ok_iff.mp stored
    have counted := dense.nextLocation_eq held
    refine ⟨?_, counted⟩
    rw [← counted]
    exact dense.slots held
  · intro id symbol stored
    have listed := Array.mem_of_getElem? (fetch_eq_ok_iff.mp stored)
    obtain ⟨scope, held⟩ := SymbolTable.exists_scope
      (dense.owners symbol (Array.mem_toList_iff.mpr listed))
    exact ⟨scope, SymbolTable.scope_eq_ok held⟩
  · intro left right one other inLeft inRight scope location
    exact SymbolId.ext (dense.index_unique (fetch_eq_ok_iff.mp inLeft)
      (fetch_eq_ok_iff.mp inRight) scope location)
  · intro before after route visit member stepped size id scope stored
    have sound := (Declaring.grows_last complete member).1
    exact Declaring.scope_of_step sound stepped size stored

/-- Two variables, one of them declared twice, and a function whose parameter
is declared twice and whose body is shared with another function. -/
def crowdedScopes : Tree where
  nodes := #[
    { kind := .declaration (.variable "x" (some .int)), line := 1,
      sibling := some ⟨1⟩ },
    { kind := .declaration (.variable "x" (some .int)), line := 2,
      sibling := some ⟨2⟩ },
    { kind := .declaration (.variable "y" (some .int)), line := 3,
      sibling := some ⟨3⟩ },
    { kind := .declaration (.function "f" (some .void)), line := 4,
      first := some ⟨5⟩, second := some ⟨7⟩, sibling := some ⟨4⟩ },
    { kind := .declaration (.function "g" (some .void)), line := 5,
      second := some ⟨7⟩ },
    { kind := .parameter ⟨some "a", some .int, false⟩, line := 4,
      sibling := some ⟨6⟩ },
    { kind := .parameter ⟨some "a", some .int, true⟩, line := 4 },
    { kind := .statement .compound, line := 6, first := some ⟨8⟩ },
    { kind := .declaration (.arrayVariable "b" (some .int) (some 2)),
      line := 7 }]
  root := some ⟨0⟩

theorem crowdedScopes_acyclic : crowdedScopes.Acyclic := by
  apply Tree.acyclic_of_forward
  intro id next node link found follows
  rcases id with ⟨_ | _ | _ | _ | _ | _ | _ | _ | _ | _⟩ <;> cases found <;>
    cases link <;> cases follows <;> decide

theorem crowdedScopes_inRange : crowdedScopes.InRange :=
  Tree.inRange_of_unfolds crowdedScopes_acyclic.unfolds (by repeat constructor)

theorem dense_at_crowded_scopes :
    crowdedScopes.Acyclic ∧ crowdedScopes.InRange ∧
      ∃ final scope, (Declaring.run true crowdedScopes).result = .ok final ∧
        (final.table.owned ScopeId.global).map Symbol.name =
          ["output", "input", "x", "y", "f", "g"] ∧
        final.table.scope ScopeId.global = .ok scope ∧
        scope.nextLocation = 6 ∧
        (final.table.owned ScopeId.global).map Symbol.location =
          [0, 1, 2, 3, 4, 5] := by
  refine ⟨crowdedScopes_acyclic, crowdedScopes_inRange, ?_⟩
  obtain ⟨final, ran, dense, owners, _⟩ :=
    storage_slots_dense true crowdedScopes_acyclic crowdedScopes_inRange
  have outcome : (Declaring.run true crowdedScopes).result.map (fun final =>
      ((final.table.owned ScopeId.global).map Symbol.name,
        final.table.symbols[0]?.map Symbol.scope)) =
      .ok (["output", "input", "x", "y", "f", "g"], some ScopeId.global) := by
    decide +kernel
  rw [ran] at outcome
  simp only [Except.map, Except.ok.injEq, Prod.mk.injEq] at outcome
  obtain ⟨names, first⟩ := outcome
  obtain ⟨symbol, held, global⟩ := Option.map_eq_some_iff.mp first
  obtain ⟨scope, stored⟩ := owners ⟨0⟩ symbol (SymbolTable.symbol_eq_ok held)
  rw [global] at stored
  obtain ⟨slots, counted⟩ := dense ScopeId.global scope stored
  have six : (final.table.owned ScopeId.global).length = 6 := by
    rw [← List.length_map Symbol.name, names]
    rfl
  rw [six] at slots counted
  exact ⟨final, scope, ran, names, stored, counted, slots⟩

end CMinusAnalysis
