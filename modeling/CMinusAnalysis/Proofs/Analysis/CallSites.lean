import CMinusAnalysis.Proofs.Analysis.Returns

namespace CMinusAnalysis

/-- What is wrong with the argument at a position, counted from one: its type is
known and is not the type of the parameter there. -/
def argumentFlaw? (operands : List (Option Ty)) (parameters : List Ty)
    (position : Nat) : Option DiagnosticKind := do
  let found ← operands[position - 1]?.join
  let expected ← parameters[position - 1]?
  if found = expected then none
  else some (.argumentTypeMismatch position expected found)

/-- What is wrong with a call: its arguments in order, and then their number. -/
def callFlaws (operands : List (Option Ty)) (parameters : List Ty) :
    List DiagnosticKind :=
  (List.range' 1 (min operands.length parameters.length)).filterMap
      (argumentFlaw? operands parameters) ++
    if operands.length = parameters.length then []
    else [.argumentCountMismatch parameters.length operands.length]

theorem argumentFlaw?_eq_none_iff {operands : List (Option Ty)}
    {parameters : List Ty} {position : Nat} :
    argumentFlaw? operands parameters position = none ↔
      ∀ found expected, operands[position - 1]? = some (some found) →
        parameters[position - 1]? = some expected → found = expected := by
  simp only [argumentFlaw?, Option.bind_eq_bind, Option.bind_eq_none_iff,
    Option.join_eq_some_iff, ite_eq_left_iff, reduceCtorEq, imp_false,
    Decidable.not_not]
  exact ⟨fun fits found expected known => fits found known expected,
    fun fits found known expected => fits found expected known⟩

theorem callFlaws_eq_nil_iff {operands : List (Option Ty)}
    {parameters : List Ty} :
    callFlaws operands parameters = [] ↔
      operands.length = parameters.length ∧
        ∀ (index : Nat) (found expected : Ty),
          operands[index]? = some (some found) →
          parameters[index]? = some expected → found = expected := by
  rw [callFlaws, List.append_eq_nil_iff, List.filterMap_eq_nil_iff, and_comm]
  refine and_congr (by simp) ?_
  simp only [List.mem_range'_1, argumentFlaw?_eq_none_iff]
  constructor
  · intro fits index found expected inOperands inParameters
    have left := (List.getElem?_eq_some_iff.mp inOperands).1
    have right := (List.getElem?_eq_some_iff.mp inParameters).1
    exact fits (index + 1) (by omega) found expected inOperands inParameters
  · exact fun fits position _ => fits (position - 1)

namespace Checking

variable {tree : Tree} {table : SymbolTable} {state : Checking} {site : Site}

theorem argumentObjections_drop (operands : List (Option Ty))
    (parameters : List Ty) (passed : Nat) :
    argumentObjections (passed + 1) (operands.drop passed)
        (parameters.drop passed) =
      (List.range' (passed + 1)
        (min operands.length parameters.length - passed)).filterMap
          (argumentFlaw? operands parameters) := by
  generalize ahead : min operands.length parameters.length - passed = rest
  induction rest generalizing passed with
  | zero =>
      -- One of the lists is used up, and the walk over both ends with it.
      by_cases short : operands.length ≤ passed
      · rw [List.drop_eq_nil_of_le short]
        simp [argumentObjections]
      · rw [List.drop_eq_nil_of_le (by omega : parameters.length ≤ passed)]
        cases operands.drop passed <;> simp [argumentObjections]
  | succ rest induction =>
      have inOperands : passed < operands.length := by omega
      have inParameters : passed < parameters.length := by omega
      have here : argumentFlaw? operands parameters (passed + 1) =
          argumentObjection? (passed + 1) parameters[passed]
            operands[passed] := by
        simp only [argumentFlaw?, Nat.add_sub_cancel, inOperands, inParameters,
          List.getElem?_eq_getElem, Option.join_some]
        cases operands[passed] <;>
          simp [argumentObjection?, ite_not]
      rw [List.drop_eq_getElem_cons inOperands,
        List.drop_eq_getElem_cons inParameters, argumentObjections,
        induction (passed + 1) (by omega), List.range'_succ,
        List.filterMap_cons, here]
      cases argumentObjection? (passed + 1) parameters[passed]
        operands[passed] <;> rfl

theorem objections_eq_callFlaws (operands : List (Option Ty))
    (parameters : List Ty) :
    argumentObjections 1 operands parameters ++
        (countObjection? parameters.length operands.length).toList =
      callFlaws operands parameters := by
  rw [callFlaws, ← Nat.sub_zero (min _ _),
    ← argumentObjections_drop operands parameters 0]
  by_cases same : operands.length = parameters.length <;>
    simp [countObjection?, same]

theorem callee?_eq_some {name : String} {symbol : SymbolId} {function : Symbol}
    (declared : table.lookupLocal ScopeId.global name = .ok (some symbol))
    (stored : table.symbol symbol = .ok function) :
    callee? table name = some function := by
  rw [SymbolTable.lookupLocal_eq (SymbolTable.has_of_lookupLocal declared)]
    at declared
  rw [callee?, Except.ok.inj declared, Option.bind_some]
  exact fetch_eq_ok_iff.mp stored

theorem objections_call {name : String} {function : Symbol}
    (kind : site.node.kind = .expression (.call name))
    (resolved : state.facts.unresolved.contains site.id = false)
    (callee : callee? table name = some function)
    (callable : function.isFunction = true) :
    state.objections tree table site =
      (callFlaws ((arguments tree site).map fun id =>
        state.operand tree table (some id)) function.parameters).map
          fun flaw => ⟨flaw, site.node.line, some name⟩ := by
  rw [← objections_eq_callFlaws]
  simp [objections, kind, complaints, callObjections, resolved, callee,
    callable]

theorem left_call {name : String} {function : Symbol}
    (kind : site.node.kind = .expression (.call name))
    (resolved : state.facts.unresolved.contains site.id = false)
    (callee : callee? table name = some function)
    (callable : function.isFunction = true) :
    state.left tree table site = { state with
      facts := state.facts.setType site.id function.type
      diagnostics := (state.left tree table site).diagnostics } := by
  have stays : state.outside table site = state := by
    simp only [outside, kind]
  have gains : state.gained tree table site = some function.type := by
    simp [gained, kind, resolved, callee, callable]
  rw [left, stays, gains]
  rfl

theorem siblingsWithin_arguments (acyclic : tree.Acyclic)
    (inRange : tree.InRange) {route : Route}
    (leads : tree.Leads tree.root route site.id)
    (found : tree.node site.id = .ok site.node) {steps : Nat}
    (enough : tree.size < steps) :
    tree.siblingsWithin steps site.node.first = .ok (arguments tree site) := by
  have unfolds := (acyclic.unfolds_slots leads found).1
  have onward (next : NodeId) (follows : site.node.follow .first = some next) :
      tree.Leads tree.root ((site, .first) :: route) next :=
    .step leads found follows
  have complete := unfolds.complete onward inRange
  have short := unfolds.length_chain_le acyclic onward
  rw [arguments, unfolds.siblings_of_acyclic acyclic complete onward]
  exact unfolds.siblingsWithin_eq complete (by omega)

theorem lt_of_mem_arguments (linked : tree.Linked site) {argument : NodeId}
    (listed : argument ∈ arguments tree site) : argument.index < tree.size := by
  obtain ⟨ids, chain, inside⟩ := linked.siblings
  rw [arguments, chain] at listed
  exact inside argument listed

end Checking

/-- In a check of a program, over tables that need not come from it, every visit
of a resolved call to a function of the first scope goes through the whole chain
of its arguments. It reports what is wrong with their types, in order, then
whether their number is wrong, and nothing else, under the name and the line of
the call; and it gives the call the type of the function. -/
theorem calls_answer_to_their_function {known : Analysis} {tree : Tree}
    (acyclic : tree.Acyclic) (inRange : tree.InRange)
    (nested : known.table.Nested) (global : known.table.Has ScopeId.global)
    (within : known.facts.Within known.table) :
    (∃ final, (tree.stops.map Prod.snd).foldlM
        (Checking.step tree known.table) known.checking = .ok final ∧
      (known.check tree).result = .ok { known with
        facts := final.facts, diagnostics := final.diagnostics }) ∧
    (Checking.history known tree).map Prod.snd = tree.stops ∧
    ∀ (name : String) (symbol : SymbolId) (function : Symbol),
      known.table.lookupLocal ScopeId.global name = .ok (some symbol) →
      known.table.symbol symbol = .ok function →
      function.isFunction = true →
      ∀ (route : Route) (site : Site),
        site.node.kind = .expression (.call name) →
        known.facts.unresolved.contains site.id = false →
        (tree.Leads tree.root route site.id →
          tree.node site.id = .ok site.node → ∃ state,
            (state, route, Visit.leave site) ∈
              Checking.history known tree) ∧
        (∀ state, (state, route, Visit.enter site) ∈
            Checking.history known tree →
          state.step tree known.table (.enter site) = .ok state) ∧
        ∀ state, (state, route, Visit.leave site) ∈
            Checking.history known tree →
          ∃ arguments operands reports,
            (∀ steps, tree.size < steps →
              tree.siblingsWithin steps site.node.first = .ok arguments) ∧
            List.Forall₂ (fun argument operand =>
              state.nodeType tree known.table argument = .ok operand)
              arguments operands ∧
            state.step tree known.table (.leave site) = .ok { state with
              facts := state.facts.setType site.id function.type
              diagnostics := reports } ∧
            reports.items = state.diagnostics.items ++
              (callFlaws operands function.parameters).map
                (fun flaw => ⟨flaw, site.node.line, some name⟩) ∧
            (reports.items = state.diagnostics.items ↔
              operands.length = function.parameters.length ∧
                ∀ (index : Nat) (found expected : Ty),
                  operands[index]? = some (some found) →
                  function.parameters[index]? = some expected →
                  found = expected) := by
  have complete := acyclic.unfolds.complete (fun _ => .start) inRange
  have supported := within.supported nested global
  have done := Checking.stops_of_supported supported acyclic complete
  have covers : (Checking.history known tree).map Prod.snd = tree.stops := by
    rw [Checking.history_of_supported supported]
    exact map_snd_trace done
  refine ⟨⟨_, done, Analysis.check_of_supported supported acyclic complete⟩,
    covers, ?_⟩
  intro name symbol function declared stored callable route site kind unmarked
  have callee := Checking.callee?_eq_some declared stored
  refine ⟨?_, ?_, ?_⟩
  · intro leads found
    rw [Checking.history_of_supported supported]
    apply exists_mem_trace done
    exact Forest.leave_mem_stops_iff.mpr
      (acyclic.unfolds.mem_stops_iff.mpr ⟨leads, found⟩)
  · intro state member
    have enclosed :=
      Checking.enclosed_at_enter supported acyclic complete member
    rw [Checking.step_enter enclosed.supported]
    simp only [Checking.entered, kind]
  · intro state member
    obtain ⟨inside, _⟩ :=
      Checking.enclosed_at_leave supported acyclic complete member
    have linked :=
      Checking.linked_at_leave supported acyclic complete member
    have stop : (route, Visit.leave site) ∈ tree.stops := by
      rw [← covers]
      exact List.mem_map_of_mem member
    obtain ⟨leads, found⟩ := acyclic.unfolds.mem_stops_iff.mp
      (Forest.leave_mem_stops_iff.mp stop)
    have resolved : state.facts.unresolved.contains site.id = false := by
      rw [inside.follows.unresolved, unmarked]
    have items := Checking.items_left tree known.table state site
    rw [Checking.objections_call kind resolved callee callable] at items
    refine ⟨_, _, _, fun _ => Checking.siblingsWithin_arguments acyclic inRange
      leads found, ?_, ?_, items, ?_⟩
    · rw [List.forall₂_map_right_iff, List.forall₂_same]
      exact fun argument listed => Checking.nodeType_eq inside.supported
        (Checking.lt_of_mem_arguments linked listed)
    · rw [Checking.step_leave inside.supported linked]
      exact congrArg _ (Checking.left_call kind resolved callee callable)
    · rw [items, List.append_right_eq_self, List.map_eq_nil_iff,
        callFlaws_eq_nil_iff]

def signatureOfTwo : Tree where
  nodes := #[
    { kind := .declaration (.function "f" (some .int)), line := 1,
      first := some ⟨1⟩ },
    { kind := .parameter ⟨some "n", some .int, false⟩, line := 1,
      sibling := some ⟨2⟩ },
    { kind := .parameter ⟨some "xs", some .int, true⟩, line := 1 }]
  root := some ⟨0⟩

/-- A call with an array, a name that means nothing, and a constant. -/
def overfullCall : Tree where
  nodes := #[
    { kind := .expression (.call "f"), line := 5, first := some ⟨1⟩ },
    { kind := .expression (.arrayIdentifier "ys"), line := 5,
      sibling := some ⟨2⟩ },
    { kind := .expression (.identifier "ghost"), line := 5,
      sibling := some ⟨3⟩ },
    { kind := .expression (.constant 7), line := 5 }]
  root := some ⟨0⟩

def overfullSite : Site :=
  ⟨⟨0⟩, { kind := .expression (.call "f"), line := 5, first := some ⟨1⟩ }⟩

theorem overfullCall_acyclic : overfullCall.Acyclic := by
  apply Tree.acyclic_of_forward
  intro id next node link found follows
  rcases id with ⟨_ | _ | _ | _ | _⟩ <;> cases found <;> cases link <;>
    cases follows <;> decide

theorem overfullCall_inRange : overfullCall.InRange :=
  Tree.inRange_of_unfolds overfullCall_acyclic.unfolds (by repeat constructor)

theorem answer_to_overfull_call :
    let known := Analysis.declared false signatureOfTwo
    overfullCall.Acyclic ∧ overfullCall.InRange ∧ known.table.Nested ∧
      known.table.Has ScopeId.global ∧ known.facts.Within known.table ∧
      ∃ state reports,
        (state, [], Visit.leave overfullSite) ∈
          Checking.history known overfullCall ∧
        state.step overfullCall known.table (.leave overfullSite) =
          .ok { state with
            facts := state.facts.setType ⟨0⟩ .integer
            diagnostics := reports } ∧
        reports.items = state.diagnostics.items ++ [
          ⟨.argumentTypeMismatch 1 .integer .integerArray, 5, some "f"⟩,
          ⟨.argumentCountMismatch 2 3, 5, some "f"⟩] := by
  intro known
  have sound := Analysis.sound_checking false signatureOfTwo
  have within : known.facts.Within known.table :=
    ⟨sound.blocks, sound.functions⟩
  refine ⟨overfullCall_acyclic, overfullCall_inRange, sound.nested,
    sound.current, within, ?_⟩
  obtain ⟨_, _, calls⟩ := calls_answer_to_their_function overfullCall_acyclic
    overfullCall_inRange sound.nested sound.current within
  have signature : (known.table.symbol ⟨0⟩).map (fun symbol =>
        (symbol.isFunction, symbol.type, symbol.parameters)) =
      .ok (true, .integer, [.integer, .integerArray]) := by
    decide +kernel
  cases stored : known.table.symbol ⟨0⟩ with
  | error fault => simp [stored, Except.map] at signature
  | ok function =>
      rw [stored] at signature
      obtain ⟨callable, type, parameters⟩ :
          function.isFunction = true ∧ function.type = .integer ∧
            function.parameters = [.integer, .integerArray] := by
        simpa [Except.map] using signature
      obtain ⟨visited, _, answers⟩ := calls "f" ⟨0⟩ function
        (by decide +kernel) stored callable [] overfullSite rfl
        (by decide +kernel)
      obtain ⟨state, member⟩ := visited (.start rfl) rfl
      obtain ⟨arguments, operands, reports, chain, read, left, items, _⟩ :=
        answers state member
      cases chain 5 (by decide)
      have types : ∀ moment ∈ Checking.history known overfullCall,
          moment.2.2 = Visit.leave overfullSite →
          moment.1.nodeType overfullCall known.table ⟨1⟩ =
              .ok (some .integerArray) ∧
            moment.1.nodeType overfullCall known.table ⟨2⟩ = .ok none ∧
            moment.1.nodeType overfullCall known.table ⟨3⟩ =
              .ok (some .integer) := by
        decide +kernel
      obtain ⟨first, second, third⟩ := types _ member rfl
      obtain _ | ⟨atFirst, _ | ⟨atSecond, _ | ⟨atThird, _ | _⟩⟩⟩ := read
      cases atFirst.symm.trans first
      cases atSecond.symm.trans second
      cases atThird.symm.trans third
      rw [parameters] at items
      rw [type] at left
      exact ⟨state, reports, member, left, items⟩

end CMinusAnalysis
