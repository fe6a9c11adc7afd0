import CMinusAnalysis.Proofs.Analysis.Safety
import CMinusAnalysis.Proofs.Checking.Enclosing

namespace CMinusAnalysis

namespace Checking

variable {known : Analysis} {tree : Tree} {state : Checking} {route : Route}
  {site : Site}

theorem enclosed_checking (supported : known.checking.Supported known.table) :
    Enclosed known known.checking [] :=
  ⟨supported, ⟨rfl, rfl, rfl⟩, rfl⟩

theorem enclosed_at_enter (supported : known.checking.Supported known.table)
    (acyclic : tree.Acyclic) (complete : tree.forest.Complete)
    (member : (state, route, Visit.enter site) ∈ history known tree) :
    Enclosed known state route := by
  rw [history_of_supported supported] at member
  have linked := Analysis.linked_of_acyclic acyclic complete
  obtain ⟨_, _, _, _, reaches⟩ :=
    (steps linked).reaches_of_enter complete supported member
  exact (enclosed_checking supported).of_reaches reaches

theorem enclosed_at_leave (supported : known.checking.Supported known.table)
    (acyclic : tree.Acyclic) (complete : tree.forest.Complete)
    (member : (state, route, Visit.leave site) ∈ history known tree) :
    Enclosed known state ((site, .first) :: route) ∧
      Enclosed known (state.left tree known.table site) route := by
  rw [history_of_supported supported] at member
  have linked := Analysis.linked_of_acyclic acyclic complete
  obtain ⟨before, first, second, third, rest, reaches, rfl⟩ :=
    (steps linked).reaches_of_leave complete supported member
  have enclosed := (enclosed_checking supported).of_reaches reaches
  refine ⟨?_, enclosed.left tree site first second third⟩
  exact (((enclosed.entered site (by decide)).walked tree first).walked tree
    second).walked tree third

theorem linked_at_leave (supported : known.checking.Supported known.table)
    (acyclic : tree.Acyclic) (complete : tree.forest.Complete)
    (member : (state, route, Visit.leave site) ∈ history known tree) :
    tree.Linked site := by
  rw [history_of_supported supported] at member
  have stop := Forest.leave_mem_stops_iff.mp (mem_of_mem_trace member)
  exact Analysis.linked_of_acyclic acyclic complete site
    (Forest.mem_sites_of_mem_stops stop)

end Checking

/-- In a check of a program, over tables that need not come from it, the pass
is always in the nearest function above the node, also after functions inside,
beside or shared with others. Leaving a return reports, for that function, the
one thing that is wrong with the value, or nothing; outside every function
nothing is wrong. No lookup feels its bound. -/
theorem returns_answer_to_innermost_function {known : Analysis} {tree : Tree}
    (acyclic : tree.Acyclic) (inRange : tree.InRange)
    (nested : known.table.Nested) (global : known.table.Has ScopeId.global)
    (within : known.facts.Within known.table) :
    (∀ (id : ScopeId) (name : String) (steps : Nat), known.table.Has id →
      known.table.scopes.size < steps →
      known.table.lookupWithin name steps id =
        known.table.lookup id name) ∧
    (∃ final, (tree.stops.map Prod.snd).foldlM
        (Checking.step tree known.table) known.checking = .ok final ∧
      (known.check tree).result = .ok { known with
        facts := final.facts, diagnostics := final.diagnostics }) ∧
    (Checking.history known tree).map Prod.snd = tree.stops ∧
    (∀ (route : Route) (site : Site), tree.Leads tree.root route site.id →
      tree.node site.id = .ok site.node →
      ∃ state, (state, route, Visit.leave site) ∈
        Checking.history known tree) ∧
    (∀ (state : Checking) (route : Route) (site : Site),
      (state, route, Visit.enter site) ∈ Checking.history known tree →
      state.function = known.functionAround route.ancestors ∧
        (site.node.kind = .statement .ret →
          state.step tree known.table (.enter site) = .ok state)) ∧
    ∀ (state : Checking) (route : Route) (site : Site),
      (state, route, Visit.leave site) ∈ Checking.history known tree →
      state.function = known.functionAround (site :: route.ancestors) ∧
        (∃ next, state.step tree known.table (.leave site) = .ok next ∧
          next.function = known.functionAround route.ancestors) ∧
        (site.node.kind = .statement .ret →
          (known.functionAround route.ancestors = none →
            state.step tree known.table (.leave site) = .ok state) ∧
          ∀ id, known.functionAround route.ancestors = some id →
            ∃ function found, known.table.symbol id = .ok function ∧
              state.operandType tree known.table site.node.first =
                .ok found ∧
              state.AnswersTo tree known.table site function found) := by
  have complete := acyclic.unfolds.complete (fun _ => .start) inRange
  have supported := within.supported nested global
  have done := Checking.stops_of_supported supported acyclic complete
  refine ⟨fun _ name _ has enough => nested.unbounded has name enough,
    ⟨_, done, Analysis.check_of_supported supported acyclic complete⟩, ?_, ?_,
    ?_, ?_⟩
  · rw [Checking.history_of_supported supported]
    exact map_snd_trace done
  · intro route site leads found
    rw [Checking.history_of_supported supported]
    apply exists_mem_trace done
    exact Forest.leave_mem_stops_iff.mpr
      (acyclic.unfolds.mem_stops_iff.mpr ⟨leads, found⟩)
  · intro state route site member
    have enclosed :=
      Checking.enclosed_at_enter supported acyclic complete member
    refine ⟨enclosed.function, ?_⟩
    intro ret
    rw [Checking.step_enter enclosed.supported]
    simp only [Checking.entered, ret]
  · intro state route site member
    obtain ⟨inside, back⟩ :=
      Checking.enclosed_at_leave supported acyclic complete member
    have linked :=
      Checking.linked_at_leave supported acyclic complete member
    have leaves := Checking.step_leave inside.supported linked
    refine ⟨inside.function, ⟨_, leaves, back.function⟩, ?_⟩
    intro ret
    -- A return is no function, so it is left in the function around it.
    have around : state.function = known.functionAround route.ancestors := by
      rw [inside.function, Analysis.functionAround_other]
      rw [ret]
      rfl
    constructor
    · intro outside
      have silent : state.objections tree known.table site = [] := by
        simp only [Checking.objections, ret, Checking.enclosing?, around,
          outside, Option.bind_none]
      rw [Checking.left_ret tree known.table state ret, silent] at leaves
      exact leaves
    · intro id enclosing
      have held := around.trans enclosing
      have stored := Array.getElem?_eq_getElem
        (inside.supported.function id held)
      refine ⟨_, _, SymbolTable.symbol_eq_ok stored,
        Checking.operandType_eq inside.supported linked.first, ?_⟩
      apply Checking.answersTo inside.supported linked ret
      rw [Checking.enclosing?, held]
      exact stored

def signaturesOnly : Tree where
  nodes := #[
    { kind := .declaration (.function "f" (some .int)), line := 1,
      sibling := some ⟨1⟩ },
    { kind := .declaration (.function "g" (some .void)), line := 2 }]
  root := some ⟨0⟩

/-- The function `f` with `g` in its body. After `g` a return without value
follows, and then the return that `g` holds as well. -/
def sharedReturn : Tree where
  nodes := #[
    { kind := .declaration (.function "f" (some .int)), line := 1,
      second := some ⟨1⟩ },
    { kind := .statement .compound, line := 1, second := some ⟨2⟩ },
    { kind := .declaration (.function "g" (some .void)), line := 2,
      second := some ⟨4⟩, sibling := some ⟨3⟩ },
    { kind := .statement .ret, line := 3, sibling := some ⟨4⟩ },
    { kind := .statement .ret, line := 4, first := some ⟨5⟩ },
    { kind := .expression (.constant 7), line := 4 }]
  root := some ⟨0⟩

def returnOfNothing : Site :=
  ⟨⟨3⟩, { kind := .statement .ret, line := 3, sibling := some ⟨4⟩ }⟩

def returnOfConstant : Site :=
  ⟨⟨4⟩, { kind := .statement .ret, line := 4, first := some ⟨5⟩ }⟩

theorem sharedReturn_acyclic : sharedReturn.Acyclic := by
  apply Tree.acyclic_of_forward
  intro id next node link found follows
  rcases id with ⟨_ | _ | _ | _ | _ | _ | _⟩ <;> cases found <;>
    cases link <;> cases follows <;> decide

theorem sharedReturn_inRange : sharedReturn.InRange :=
  Tree.inRange_of_unfolds sharedReturn_acyclic.unfolds (by repeat constructor)

theorem returns_after_nested_function :
    let known := Analysis.declared false signaturesOnly
    sharedReturn.Acyclic ∧ sharedReturn.InRange ∧ known.table.Nested ∧
      known.table.Has ScopeId.global ∧ known.facts.Within known.table ∧
      ∃ inner plain outer : Route, ∃ first second third : Checking,
        (first, inner, Visit.leave returnOfConstant) ∈
          Checking.history known sharedReturn ∧
        (second, plain, Visit.leave returnOfNothing) ∈
          Checking.history known sharedReturn ∧
        (third, outer, Visit.leave returnOfConstant) ∈
          Checking.history known sharedReturn ∧
        first.step sharedReturn known.table (.leave returnOfConstant) =
          .ok (first.reported [⟨.returnValueInVoid, 4, some "g"⟩]) ∧
        second.step sharedReturn known.table (.leave returnOfNothing) =
          .ok (second.reported [⟨.missingReturnValue, 3, some "f"⟩]) ∧
        third.step sharedReturn known.table (.leave returnOfConstant) =
          .ok third := by
  intro known
  have sound := Analysis.sound_checking false signaturesOnly
  have within : known.facts.Within known.table :=
    ⟨sound.blocks, sound.functions⟩
  refine ⟨sharedReturn_acyclic, sharedReturn_inRange, sound.nested,
    sound.current, within, ?_⟩
  obtain ⟨_, _, _, visited, _, answers⟩ := returns_answer_to_innermost_function
    sharedReturn_acyclic sharedReturn_inRange sound.nested sound.current within
  have toBlock := @Tree.Leads.step sharedReturn sharedReturn.root _ ⟨0⟩ ⟨1⟩ _
    .second (.start rfl) rfl rfl
  have toNested := @Tree.Leads.step sharedReturn sharedReturn.root _ ⟨1⟩ ⟨2⟩ _
    .second toBlock rfl rfl
  have toInner := @Tree.Leads.step sharedReturn sharedReturn.root _ ⟨2⟩ ⟨4⟩ _
    .second toNested rfl rfl
  have toPlain := @Tree.Leads.step sharedReturn sharedReturn.root _ ⟨2⟩ ⟨3⟩ _
    .sibling toNested rfl rfl
  have toOuter := @Tree.Leads.step sharedReturn sharedReturn.root _ ⟨3⟩ ⟨4⟩ _
    .sibling toPlain rfl rfl
  have symbols : (known.table.symbol ⟨0⟩).map
        (fun symbol => (symbol.name, symbol.type)) = .ok ("f", .integer) ∧
      (known.table.symbol ⟨1⟩).map
        (fun symbol => (symbol.name, symbol.type)) = .ok ("g", .void) := by
    decide +kernel
  obtain ⟨first, inside⟩ := visited _ returnOfConstant toInner rfl
  obtain ⟨second, between⟩ := visited _ returnOfNothing toPlain rfl
  obtain ⟨third, after⟩ := visited _ returnOfConstant toOuter rfl
  refine ⟨_, _, _, first, second, third, inside, between, after, ?_, ?_, ?_⟩
  · obtain ⟨function, found, stored, _, answers⟩ :=
      ((answers _ _ _ inside).2.2 rfl).2 ⟨1⟩ (by decide +kernel)
    rw [stored] at symbols
    obtain ⟨named, typed⟩ := Prod.mk.inj (Except.ok.inj symbols.2)
    exact named ▸ answers.flawed (.valueInVoid typed rfl)
  · obtain ⟨function, found, stored, _, answers⟩ :=
      ((answers _ _ _ between).2.2 rfl).2 ⟨0⟩ (by decide +kernel)
    rw [stored] at symbols
    obtain ⟨named, typed⟩ := Prod.mk.inj (Except.ok.inj symbols.1)
    exact named ▸ answers.flawed (.missingValue (by simp [typed]) rfl)
  · obtain ⟨function, found, stored, operand, answers⟩ :=
      ((answers _ _ _ after).2.2 rfl).2 ⟨0⟩ (by decide +kernel)
    have integer : ∀ moment ∈ Checking.history known sharedReturn,
        moment.2.2 = Visit.leave returnOfConstant →
        moment.1.operandType sharedReturn known.table (some ⟨5⟩) =
          .ok (some .integer) := by
      decide +kernel
    cases operand.symm.trans (integer _ after rfl)
    rw [stored] at symbols
    obtain ⟨_, typed⟩ := Prod.mk.inj (Except.ok.inj symbols.1)
    apply answers.flawless
    intro kind flaw
    cases flaw with
    | valueInVoid void present => simp [typed] at void
    | missingValue result absent => cases absent
    | mismatch result known differs =>
        cases known
        exact differs typed.symm

end CMinusAnalysis
