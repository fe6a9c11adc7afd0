import CMinusAnalysis.Proofs.Analysis.FunctionSymbols
import CMinusAnalysis.Proofs.Analysis.ScopeBalance
import CMinusAnalysis.Proofs.Declaring.Journal

namespace CMinusAnalysis

namespace Declaring

variable {builtins : Bool} {tree : Tree} {route : Route} {site : Site}
  {before final : Declaring}

theorem onlyFunctionsSigned_last (builtins : Bool)
    (complete : tree.forest.Complete) :
    (last builtins tree).table.OnlyFunctionsSigned := by
  apply (visits_induction (grows_origin builtins).sound
    (stops_result builtins complete)
    (motive := fun state _ => state.table.OnlyFunctionsSigned)
    (onlyFunctionsSigned_origin builtins) ?_ ?_).2
  · exact fun _ sound held => onlyFunctionsSigned_entered sound held _
  · intro state route site past _ _ held
    rw [table_left]
    exact held

theorem unfold_of_reaches (acyclic : tree.Acyclic) {state : Declaring}
    {first second third rest : Forest}
    (leads : tree.Leads tree.root route site.id)
    (found : tree.node site.id = .ok site.node)
    (reaches : Forest.Reaches Declaring.entered Declaring.left state []
      tree.forest before route (.cons site first second third rest)) :
    first = tree.unfold site.node.first := by
  have slots := reaches.invariant (fun _ _ part => tree.Slots part)
    (fun slots => ⟨slots.2.2.1, slots.2.2.2.1, slots.2.2.2.2.1,
      slots.2.2.2.2.2⟩) acyclic.unfolds.slots
  exact slots.1.unique (acyclic.unfolds_slots leads found).1

theorem signature_last (acyclic : tree.Acyclic)
    (complete : tree.forest.Complete)
    (placed : tree.forest.ParametersPlaced)
    (visit : VisitAt builtins tree route site before final) {name : String}
    {spec : Option TypeSpec}
    (kind : site.node.kind = .declaration (.function name spec))
    (accepted : before.Accepts name) :
    (last builtins tree).table.parameters? ⟨before.table.symbols.size⟩ =
      some (tree.unfold site.node.first).signature := by
  obtain ⟨first, _, _, _, reaches, _⟩ := visit.exists_reaches complete
  rw [← unfold_of_reaches acyclic visit.reached visit.found reaches]
  exact signature_of_reaches reaches rfl placed (grows_origin builtins).sound
    kind accepted

theorem placed_of_reaches {state : Declaring} {forest part : Forest}
    {along : Route} (placed : forest.ParametersPlaced)
    (reaches : Forest.Reaches Declaring.entered Declaring.left state route
      forest before along part) :
    part.ParametersPlaced ∨ part.Leaves NodeKind.isParameter := by
  refine reaches.invariant (fun _ _ part =>
    part.ParametersPlaced ∨ part.Leaves NodeKind.isParameter) ?_ (.inl placed)
  intro state route site first second third rest here
  rcases here with placed | leaves
  · cases placed with
    | other _ _ inFirst inSecond inThird inRest =>
        exact ⟨.inl inFirst, .inl inSecond, .inl inThird, .inl inRest⟩
    | function _ declared inSecond inThird inRest =>
        exact ⟨.inr declared, .inl inSecond, .inl inThird, .inl inRest⟩
  · cases leaves with
    | cons _ tail => exact ⟨.inl .nil, .inl .nil, .inl .nil, .inr tail⟩

theorem keeps_visit (complete : tree.forest.Complete)
    (placed : tree.forest.ParametersPlaced)
    (visit : VisitAt builtins tree route site before final)
    (function : site.node.kind.isFunction = true) :
    before.table.KeepsSignatures none final.table := by
  have sound := (grows_last complete visit.entered).1
  obtain ⟨first, second, third, rest, reaches, rfl⟩ :=
    visit.exists_reaches complete
  have alone : (Forest.cons site first second third .nil).ParametersPlaced := by
    rcases placed_of_reaches placed reaches with here | leaves
    · cases here with
      | other unlike => cases function.symm.trans unlike
      | function kind declared inSecond inThird _ =>
          exact .function kind declared inSecond inThird .nil
    · cases leaves with
      | cons parameter _ =>
          cases function.symm.trans
            (NodeKind.isFunction_of_isParameter parameter)
  have keeps := keeps_placed alone sound
  rwa [walked_cons, walked_nil, table_left] at keeps

theorem parameters?_runtime {name : String} {types : List Ty}
    (placed : tree.forest.ParametersPlaced)
    (listed : (name, types) ∈ [("output", [Ty.integer]), ("input", [])]) :
    ∃ id, (last true tree).table.globalFunction? name = some id ∧
      (last true tree).table.parameters? id = some types := by
  have sound := (grows_origin true).sound
  have grown := grows_walked sound tree.forest
  have keeps := keeps_placed placed sound
  have onward (id : SymbolId)
      (known : (origin true).table.globalFunction? name = some id)
      (held : (origin true).table.parameters? id = some types) :
      ∃ id, (last true tree).table.globalFunction? name = some id ∧
        (last true tree).table.parameters? id = some types :=
    ⟨id, grown.table.globalFunction? sound.global known,
      keeps (by simp) held⟩
  simp only [List.mem_cons, Prod.mk.injEq, List.not_mem_nil, or_false]
    at listed
  rcases listed with ⟨rfl, rfl⟩ | ⟨rfl, rfl⟩
  · exact onward ⟨0⟩ (by decide +kernel) (by decide +kernel)
  · exact onward ⟨1⟩ (by decide +kernel) (by decide +kernel)

end Declaring

/-- No parameter is ever refused by the function it is declared for, and only
functions have signatures. Where parameters stand only in the first slots of
functions, an accepted function has the types of the parameters declared for it,
of each name the first; from entering a refused function to leaving it all
symbols keep their signatures; and the runtime functions have those that they
came with. -/
theorem signatures_as_declared (builtins : Bool) {tree : Tree}
    (acyclic : tree.Acyclic) (inRange : tree.InRange) :
    ∃ final, (Declaring.run builtins tree).result = .ok final ∧
      (∀ failure : Failure, Entry.signatureRefused failure ∉
        (Declaring.run builtins tree).journal) ∧
      (∀ (id : SymbolId) (symbol : Symbol),
        final.table.symbol id = .ok symbol → symbol.isFunction = false →
        symbol.parameters = []) ∧
      (tree.forest.ParametersPlaced →
        (∀ (route : Route) (site : Site) (name : String)
          (spec : Option TypeSpec), tree.Leads tree.root route site.id →
          tree.node site.id = .ok site.node →
          site.node.kind = .declaration (.function name spec) →
          ∃ before last,
            Declaring.VisitAt builtins tree route site before last ∧
            (before.Accepts name → ∃ symbol,
              final.facts.functions.get? site.id =
                some ⟨before.table.symbols.size⟩ ∧
              final.table.symbol ⟨before.table.symbols.size⟩ = .ok symbol ∧
              symbol.parameters = (tree.unfold site.node.first).signature) ∧
            (¬ before.Accepts name → ∀ (id : SymbolId) (symbol : Symbol),
              before.table.symbol id = .ok symbol → ∃ later,
                last.table.symbol id = .ok later ∧
                later.parameters = symbol.parameters)) ∧
        (builtins = true → ∀ (name : String) (types : List Ty),
          (name, types) ∈ [("output", [Ty.integer]), ("input", [])] →
          ∃ id symbol, final.table.globalFunction? name = some id ∧
            final.table.symbol id = .ok symbol ∧
            symbol.parameters = types)) := by
  have complete := acyclic.unfolds.complete (fun _ => .start) inRange
  have stored {table : SymbolTable} {id : SymbolId} {types : List Ty}
      (held : table.parameters? id = some types) :
      ∃ symbol, table.symbol id = .ok symbol ∧ symbol.parameters = types := by
    obtain ⟨symbol, found, same⟩ := Option.map_eq_some_iff.mp held
    exact ⟨symbol, SymbolTable.symbol_eq_ok found, same⟩
  refine ⟨_, Declaring.run_result builtins complete, ?_, ?_, fun placed =>
    ⟨?_, ?_⟩⟩
  · intro failure noted
    cases Declaring.smooth_run builtins tree _ noted
  · intro id symbol held plain
    exact Declaring.onlyFunctionsSigned_last builtins complete
      (fetch_eq_ok_iff.mp held) plain
  · intro route site name spec leads found kind
    obtain ⟨before, last, visit⟩ :=
      Declaring.exists_visitAt builtins acyclic complete leads found
    refine ⟨before, last, visit, fun accepted => ?_, ?_⟩
    · obtain ⟨symbol, held, signed⟩ := stored (Declaring.signature_last acyclic
        complete placed visit kind accepted)
      refine ⟨symbol, ?_, held, signed⟩
      exact (Declaring.enrolment_last builtins acyclic complete).recorded.mpr
        (Declaring.mem_enrolled_iff.mpr ⟨before, route, site, name, spec,
          visit.entered, rfl, kind, accepted, rfl⟩)
    · intro _ id symbol held
      apply stored
      refine Declaring.keeps_visit complete placed visit ?_ (by simp) ?_
      · rw [kind]
        rfl
      · exact congrArg _ (fetch_eq_ok_iff.mp held)
  · rintro rfl name types listed
    obtain ⟨id, known, held⟩ := Declaring.parameters?_runtime placed listed
    obtain ⟨symbol, found, signed⟩ := stored held
    exact ⟨id, symbol, known, found, signed⟩

/-- A function with parameters of which one has no name and two have the same
one, which declares another function inside and is itself declared again, both
with parameters of their own. -/
def contestedParameters : Tree where
  nodes := #[
    { kind := .declaration (.function "f" (some .int)), line := 1,
      first := some ⟨1⟩, second := some ⟨5⟩, sibling := some ⟨8⟩ },
    { kind := .parameter ⟨some "x", some .int, false⟩, line := 1,
      sibling := some ⟨2⟩ },
    { kind := .parameter ⟨none, some .int, false⟩, line := 1,
      sibling := some ⟨3⟩ },
    { kind := .parameter ⟨some "y", some .int, true⟩, line := 1,
      sibling := some ⟨4⟩ },
    { kind := .parameter ⟨some "x", some .int, true⟩, line := 1 },
    { kind := .statement .compound, line := 1, first := some ⟨6⟩ },
    { kind := .declaration (.function "g" (some .int)), line := 2,
      first := some ⟨7⟩ },
    { kind := .parameter ⟨some "z", some .int, false⟩, line := 2 },
    { kind := .declaration (.function "f" (some .int)), line := 3,
      first := some ⟨9⟩ },
    { kind := .parameter ⟨some "w", some .int, false⟩, line := 3 }]
  root := some ⟨0⟩

def contestedFunction : Site :=
  ⟨⟨0⟩,
    { kind := .declaration (.function "f" (some .int)), line := 1,
      first := some ⟨1⟩, second := some ⟨5⟩, sibling := some ⟨8⟩ }⟩

theorem contestedParameters_acyclic : contestedParameters.Acyclic := by
  apply Tree.acyclic_of_forward
  intro id next node link found follows
  rcases id with ⟨_ | _ | _ | _ | _ | _ | _ | _ | _ | _ | _⟩ <;>
    cases found <;> cases link <;> cases follows <;> decide

theorem contestedParameters_inRange : contestedParameters.InRange :=
  Tree.inRange_of_unfolds contestedParameters_acyclic.unfolds
    (by repeat constructor)

theorem contestedParameters_placed :
    contestedParameters.forest.ParametersPlaced :=
  .function rfl (.cons rfl (.cons rfl (.cons rfl (.cons rfl .nil))))
    (.other rfl rfl (.function rfl (.cons rfl .nil) .nil .nil .nil) .nil .nil
      .nil) .nil (.function rfl (.cons rfl .nil) .nil .nil .nil)

theorem signatures_at_contested_parameters :
    contestedParameters.Acyclic ∧ contestedParameters.InRange ∧
      contestedParameters.forest.ParametersPlaced ∧
      ∃ final, (Declaring.run true contestedParameters).result = .ok final ∧
        (∀ failure : Failure, Entry.signatureRefused failure ∉
          (Declaring.run true contestedParameters).journal) ∧
        ∃ id symbol,
          final.facts.functions.get? contestedFunction.id = some id ∧
          final.table.symbol id = .ok symbol ∧
          symbol.parameters = [.integer, .integerArray] := by
  refine ⟨contestedParameters_acyclic, contestedParameters_inRange,
    contestedParameters_placed, ?_⟩
  obtain ⟨final, ran, smooth, _, signed⟩ := signatures_as_declared true
    contestedParameters_acyclic contestedParameters_inRange
  obtain ⟨before, last, visit, recorded, _⟩ :=
    (signed contestedParameters_placed).1 [] contestedFunction _ _
      (.start rfl) rfl rfl
  have accepting : ∀ moment ∈ Declaring.history true contestedParameters,
      moment.2.2 = Visit.enter contestedFunction →
      moment.1.Accepts "f" := by
    decide +kernel
  obtain ⟨symbol, entry, stored, parameters⟩ :=
    recorded (accepting _ visit.entered rfl)
  exact ⟨final, ran, smooth, _, symbol, entry, stored,
    parameters.trans (by decide +kernel)⟩

end CMinusAnalysis
