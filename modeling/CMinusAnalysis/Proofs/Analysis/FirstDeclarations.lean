import CMinusAnalysis.Proofs.Analysis.Passes
import CMinusAnalysis.Proofs.Declaring.Declarations

namespace CMinusAnalysis

namespace Declaring

variable {builtins : Bool} {tree : Tree} {before : Declaring} {route : Route}
  {visit : Visit}

theorem asDeclared_last (builtins : Bool) (complete : tree.forest.Complete) :
    (last builtins tree).table.symbols.toList.map Symbol.asDeclared =
      runtime builtins ++ (history builtins tree).filterMap created? := by
  have dated := kept_dated.origin builtins dated_bare
  rw [history_eq]
  apply (visits_induction (grows_origin builtins).sound
    (stops_result builtins complete) (motive := fun state past =>
      state.table.Dated ∧ state.table.symbols.toList.map Symbol.asDeclared =
        runtime builtins ++ past.filterMap created?) ?_ ?_ ?_).2.2
  · refine ⟨dated, ?_⟩
    rw [asDeclared_origin, List.filterMap_nil, List.append_nil]
  · rintro state route site past _ sound ⟨dated, listed⟩
    refine ⟨kept_dated.entered sound site dated, ?_⟩
    rw [asDeclared_entered sound dated route, listed, filterMap_concat,
      List.append_assoc]
  · rintro state route site past _ sound ⟨dated, listed⟩
    rw [table_left, filterMap_concat, created?_leave sound, listed]
    exact ⟨dated, by simp⟩

theorem asDeclared_prefix (complete : tree.forest.Complete)
    (member : (before, route, visit) ∈ history builtins tree) :
    before.table.symbols.toList.map Symbol.asDeclared <+:
      (last builtins tree).table.symbols.toList.map Symbol.asDeclared := by
  have sound := (grows_last complete member).1
  have dated := kept_dated.at_visit dated_bare complete member
  rw [history_eq] at member
  obtain ⟨_, _, _, _, onward⟩ :=
    exists_split_of_mem_trace (stops_result builtins complete) member
  apply (visits_induction sound onward (motive := fun state _ =>
    state.table.Dated ∧ before.table.symbols.toList.map Symbol.asDeclared <+:
      state.table.symbols.toList.map Symbol.asDeclared) ?_ ?_ ?_).2.2
  · exact ⟨dated, List.prefix_rfl⟩
  · rintro state route site past _ sound ⟨dated, early⟩
    refine ⟨kept_dated.entered sound site dated, early.trans ?_⟩
    rw [asDeclared_entered sound dated route]
    exact List.prefix_append _ _
  · rintro state route site past _ sound ⟨dated, early⟩
    rw [table_left]
    exact ⟨dated, early⟩

theorem creates_of_created (complete : tree.forest.Complete)
    (member : (before, route, visit) ∈ history builtins tree) {symbol : Symbol}
    (created : created? (before, route, visit) = some symbol) :
    ∃ site introduction after, visit = .enter site ∧
      site.node.kind.introduces? = some introduction ∧
      before.step visit = .ok after ∧
      before.Creates after introduction site.node.line := by
  have sound := (grows_last complete member).1
  cases visit with
  | missing fault => cases created
  | leave site =>
      rw [created?_leave sound] at created
      cases created
  | enter site =>
      have stepped := step_enter sound site
      rcases size_symbols_entered sound site with
        ⟨introduction, introduces, creates⟩ | size
      · exact ⟨site, introduction, _, rfl, introduces, stepped, creates⟩
      · rw [created?_eq_none stepped size] at created
        cases created

end Declaring

/-- Every visit of a declaration creates the symbol that it asks for or is
refused with one report, the latter just when there is a reason to refuse it.
The final table holds the runtime functions and after them the symbols that were
created so, in order of the visits, and no step of the run changes what a symbol
was declared as. -/
theorem first_declarations_count (builtins : Bool) {tree : Tree}
    (acyclic : tree.Acyclic) (inRange : tree.InRange) :
    ∃ final, (Declaring.run builtins tree).result = .ok final ∧
      (∀ (route : Route) (site : Site), tree.Leads tree.root route site.id →
        tree.node site.id = .ok site.node → ∃ before,
          (before, route, Visit.enter site) ∈
            Declaring.history builtins tree) ∧
      (∀ (before : Declaring) (route : Route) (site : Site)
        (introduction : Introduction),
        (before, route, Visit.enter site) ∈ Declaring.history builtins tree →
        site.node.kind.introduces? = some introduction → ∃ after,
          before.step (.enter site) = .ok after ∧
          (before.Creates after introduction site.node.line ↔
            ∀ kind, ¬ before.Refusal site.node.kind introduction kind) ∧
          ∀ kind, before.Refuses after kind introduction site.node.line ↔
            before.Refusal site.node.kind introduction kind) ∧
      final.table.symbols.toList.map Symbol.asDeclared =
        Declaring.runtime builtins ++
          (Declaring.history builtins tree).filterMap Declaring.created? ∧
      (∀ (before : Declaring) (route : Route) (visit : Visit)
        (symbol : Symbol),
        (before, route, visit) ∈ Declaring.history builtins tree →
        Declaring.created? (before, route, visit) = some symbol →
        ∃ site introduction after, visit = .enter site ∧
          site.node.kind.introduces? = some introduction ∧
          before.step visit = .ok after ∧
          before.Creates after introduction site.node.line) ∧
      ∀ (before : Declaring) (route : Route) (visit : Visit),
        (before, route, visit) ∈ Declaring.history builtins tree →
        before.table.symbols.toList.map Symbol.asDeclared <+:
          final.table.symbols.toList.map Symbol.asDeclared := by
  have complete := acyclic.unfolds.complete (fun _ => .start) inRange
  refine ⟨_, Declaring.run_result builtins complete, ?_, ?_,
    Declaring.asDeclared_last builtins complete, ?_, ?_⟩
  · intro route site leads found
    exact Declaring.exists_mem_history builtins complete
      (acyclic.unfolds.mem_stops_iff.mpr ⟨leads, found⟩)
  · intro before route site introduction member introduces
    have sound := (Declaring.grows_last complete member).1
    exact ⟨_, Declaring.step_enter sound site,
      Declaring.creates_iff sound introduces,
      Declaring.refuses_iff sound introduces⟩
  · intro before route visit symbol member created
    exact Declaring.creates_of_created complete member created
  · intro before route visit member
    exact Declaring.asDeclared_prefix complete member

/-- A variable that is declared again as an array, and a function in which it
is declared once more, the function itself is declared again and another
function is declared. -/
def redeclarations : Tree where
  nodes := #[
    { kind := .declaration (.variable "x" (some .int)), line := 1,
      sibling := some ⟨1⟩ },
    { kind := .declaration (.arrayVariable "x" (some .int) (some 3)), line := 2,
      sibling := some ⟨2⟩ },
    { kind := .declaration (.function "f" (some .void)), line := 3,
      second := some ⟨3⟩ },
    { kind := .statement .compound, line := 3, first := some ⟨4⟩ },
    { kind := .declaration (.variable "x" (some .int)), line := 4,
      sibling := some ⟨5⟩ },
    { kind := .declaration (.function "f" (some .void)), line := 5,
      sibling := some ⟨6⟩ },
    { kind := .declaration (.function "g" (some .int)), line := 6 }]
  root := some ⟨0⟩

def innerFunction : Site :=
  ⟨⟨6⟩, { kind := .declaration (.function "g" (some .int)), line := 6 }⟩

theorem redeclarations_unfolds :
    redeclarations.Unfolds redeclarations.root redeclarations.forest := by
  repeat constructor

theorem redeclarations_complete : redeclarations.forest.Complete := by
  repeat constructor

theorem redeclarations_single : redeclarations.SinglePath :=
  Tree.singlePath_of_unfolds redeclarations_unfolds redeclarations_complete
    (by decide)

theorem redeclarations_inRange : redeclarations.InRange :=
  Tree.inRange_of_unfolds redeclarations_unfolds redeclarations_complete

theorem first_declarations_at_redeclarations :
    redeclarations.Acyclic ∧ redeclarations.InRange ∧
      ∃ final, (Declaring.run false redeclarations).result = .ok final ∧
        final.table.symbols.toList.map (fun symbol =>
            (symbol.name, symbol.type, symbol.lines)) =
          [("x", .integer, [1]), ("f", .void, [3]), ("x", .integer, [4])] ∧
        ∃ before route after, (before, route, Visit.enter innerFunction) ∈
            Declaring.history false redeclarations ∧
          before.step (.enter innerFunction) = .ok after ∧
          before.Refuses after .functionNotGlobal ⟨"g", .integer, true⟩ 6 := by
  have acyclic := redeclarations_single.acyclic
  refine ⟨acyclic, redeclarations_inRange, ?_⟩
  obtain ⟨final, ran, visited, declares, _⟩ :=
    first_declarations_count false acyclic redeclarations_inRange
  have outcome : (Declaring.run false redeclarations).result.map (fun final =>
      final.table.symbols.toList.map fun symbol =>
        (symbol.name, symbol.type, symbol.lines)) =
      .ok [("x", .integer, [1]), ("f", .void, [3]), ("x", .integer, [4])] := by
    decide +kernel
  rw [ran] at outcome
  simp only [Except.map, Except.ok.injEq] at outcome
  obtain ⟨route, leads, found⟩ :=
    Tree.leads_of_visited redeclarations_single innerFunction (by decide)
  obtain ⟨before, member⟩ := visited _ _ leads found
  obtain ⟨after, stepped, _, refuses⟩ :=
    declares before route innerFunction _ member rfl
  have looked : ∀ moment ∈ Declaring.history false redeclarations,
      moment.2.2 = Visit.enter innerFunction →
      moment.1.table.lookupLocal ScopeId.global "g" = .ok none ∧
        moment.1.current ≠ ScopeId.global := by
    decide +kernel
  obtain ⟨free, inside⟩ := looked _ member rfl
  exact ⟨final, ran, outcome, before, route, after, member, stepped,
    (refuses _).mpr (.inner rfl free inside)⟩

end CMinusAnalysis
