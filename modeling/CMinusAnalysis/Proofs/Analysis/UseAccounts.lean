import CMinusAnalysis.Proofs.Analysis.Passes
import CMinusAnalysis.Proofs.Declaring.Uses

namespace CMinusAnalysis

namespace Checking

theorem step_unresolved {tree : Tree} {table : SymbolTable} {state : Checking}
    {site : Site} {name : String} (sound : state.Sound table)
    (linked : tree.Linked site) (use : site.node.kind.use? = some name)
    (marked : state.facts.unresolved.contains site.id = true) {visit : Visit}
    (here : visit = .enter site ∨ visit = .leave site) :
    ∃ after, step tree table state visit = .ok after ∧
      after.diagnostics = state.diagnostics := by
  rcases here with rfl | rfl
  · refine ⟨_, step_enter sound.toSupported site, ?_⟩
    unfold entered
    split
    · rfl
    · next kind => simp [kind, NodeKind.use?] at use
    · rfl
  · refine ⟨_, step_leave sound.toSupported linked, ?_⟩
    have silent : state.objections tree table site = [] := by
      unfold NodeKind.use? at use
      split at use
      · next kind => simp [objections, kind, nameObjections, marked, complaints]
      · next kind => simp [objections, kind, nameObjections, marked, complaints]
      · next kind => simp [objections, kind, callObjections, marked, complaints]
      · cases use
    apply Diagnostics.ext
    rw [items_left, silent, List.append_nil]

end Checking

namespace Declaring

variable {builtins : Bool} {tree : Tree}

theorem accounts_last (builtins : Bool) (complete : tree.forest.Complete) :
    Accounts builtins (last builtins tree) (history builtins tree) := by
  rw [history_eq]
  apply (visits_induction (grows_origin builtins).sound
    (stops_result builtins complete)
    (motive := Accounts builtins) (accounts_origin builtins) ?_ ?_).2
  · exact fun _ sound accounts => accounts.entered sound _ _
  · exact fun _ _ accounts => accounts.left _ _

theorem uses_history (builtins : Bool) (complete : tree.forest.Complete) :
    ((history builtins tree).filterMap fun moment => moment.2.2.use?) =
      tree.stops.filterMap fun stop => stop.2.use? := by
  have same := map_snd_trace (stops_result builtins complete)
  rw [← history_eq] at same
  rw [← same, List.filterMap_map]
  rfl

theorem uses_balance (builtins : Bool) (complete : tree.forest.Complete) :
    ((tree.stops.filterMap fun stop => stop.2.use?).map fun use =>
        (some use.1, use.2)).Perm
      (((last builtins tree).table.uses.map fun use => (some use.1, use.2)) ++
        (last builtins tree).undeclared.map fun diagnostic =>
          (diagnostic.name, diagnostic.line)) := by
  have accounts := accounts_last builtins complete
  rw [← uses_history builtins complete, accounts.reports]
  have balance := accounts.balance.map
    fun use : String × Nat => (some use.1, use.2)
  rw [List.map_append, List.map_map] at balance
  rw [List.map_map]
  exact balance

theorem marked_of_missed (complete : tree.forest.Complete)
    {before : Declaring} {route : Route} {site : Site} {name : String}
    (member : (before, route, Visit.enter site) ∈ history builtins tree)
    (missed : missed? (before, route, .enter site) = some (site, name)) :
    (last builtins tree).facts.unresolved.contains site.id = true := by
  apply ((accounts_last builtins complete).marks site.id).mpr
  exact List.mem_map.mpr
    ⟨(site, name), List.mem_filterMap.mpr ⟨_, member, missed⟩, rfl⟩

theorem use_of_marked (acyclic : tree.Acyclic)
    (complete : tree.forest.Complete) {site : Site}
    (found : tree.node site.id = .ok site.node)
    (marked : (last builtins tree).facts.unresolved.contains site.id = true) :
    ∃ name, site.node.kind.use? = some name := by
  have listed := ((accounts_last builtins complete).marks site.id).mp marked
  obtain ⟨⟨other, name⟩, missed, same⟩ := List.mem_map.mp listed
  obtain ⟨⟨before, route, visit⟩, member, event⟩ := List.mem_filterMap.mp missed
  cases visit with
  | leave site => cases event
  | missing fault => cases event
  | enter seen =>
      obtain ⟨name, use, miss⟩ := Option.bind_eq_some_iff.mp event
      split at miss
      · cases miss
        rw [history_eq] at member
        have stop := acyclic.unfolds.mem_stops_iff.mp (mem_of_mem_trace member)
        have node : other.node = site.node := by
          have there := stop.2
          change other.id = site.id at same
          rw [same, found] at there
          exact (Except.ok.inj there).symm
        exact ⟨name, node ▸ use⟩
      · cases miss

end Declaring

/-- The lines of a symbol are that of its declaration and those of the uses that
were looked up to it, in order of the visits. Each use is noted at one symbol of
its name, or it is reported and marked; together these are all uses of the
program. At a marked node the checking pass reports nothing. -/
theorem uses_accounted_for (config : Config) {tree : Tree}
    (acyclic : tree.Acyclic) (inRange : tree.InRange) :
    ∃ declared checked, (declare config tree).result = .ok declared ∧
      (declared.check tree).result = .ok checked ∧
      (∀ (route : Route) (site : Site), tree.Leads tree.root route site.id →
        tree.node site.id = .ok site.node →
        (∃ before, (before, route, Visit.enter site) ∈
          Declaring.history config.builtins tree) ∧
        ∀ visit, visit = Visit.enter site ∨ visit = Visit.leave site →
          ∃ state, (state, route, visit) ∈ Checking.history declared tree) ∧
      (∀ (id : SymbolId) (symbol : Symbol),
        declared.table.symbol id = .ok symbol → ∃ line,
          Declaring.DeclaredOn config.builtins
            (Declaring.history config.builtins tree) id line ∧
          symbol.lines = line ::
            (Declaring.history config.builtins tree).filterMap
              (Declaring.usedAt? id)) ∧
      (∀ (before : Declaring) (route : Route) (site : Site) (name : String),
        (before, route, Visit.enter site) ∈
          Declaring.history config.builtins tree →
        site.node.kind.use? = some name →
        (∃ id entry,
          before.table.lookup before.current name = .ok (some id) ∧
          before.table.symbol id = .ok entry ∧ entry.name = name ∧
          before.step (.enter site) = .ok { before with
            table := before.table.modifySymbol id
              (·.addLine site.node.line) }) ∨
        before.table.lookup before.current name = .ok none ∧
          before.step (.enter site) = .ok { before with
            diagnostics := before.diagnostics.add
              ⟨.undeclared, site.node.line, some name⟩
            facts := before.facts.setUnresolved site.id } ∧
          declared.facts.unresolved.contains site.id = true) ∧
      ((tree.stops.filterMap fun stop => stop.2.use?).map fun use =>
          (some use.1, use.2)).Perm
        ((declared.table.uses.map fun use => (some use.1, use.2)) ++
          (declared.diagnostics.items.filter fun diagnostic =>
            diagnostic.kind = .undeclared).map fun diagnostic =>
              (diagnostic.name, diagnostic.line)) ∧
      ∀ (state : Checking) (route : Route) (visit : Visit) (site : Site),
        (state, route, visit) ∈ Checking.history declared tree →
        visit = .enter site ∨ visit = .leave site →
        declared.facts.unresolved.contains site.id = true → ∃ after,
          Checking.step tree declared.table state visit = .ok after ∧
          after.diagnostics = state.diagnostics := by
  have complete := acyclic.unfolds.complete (fun _ => .start) inRange
  have accounts := Declaring.accounts_last config.builtins complete
  refine ⟨_, _, Analysis.declare_result config complete,
    Analysis.check_of_acyclic config.builtins acyclic complete, ?_,
    fun _ _ => accounts.lines, ?_,
    Declaring.uses_balance config.builtins complete, ?_⟩
  · intro route site leads found
    have stop := acyclic.unfolds.mem_stops_iff.mpr ⟨leads, found⟩
    refine ⟨Declaring.exists_mem_history _ complete stop, ?_⟩
    rintro visit (rfl | rfl)
    · exact Checking.exists_visit _ acyclic complete stop
    · exact Checking.exists_visit _ acyclic complete
        (Forest.leave_mem_stops_iff.mpr stop)
  · intro before route site name member use
    have sound := (Declaring.grows_last complete member).1
    have looked :=
      SymbolTable.lookup_eq sound.coherent sound.current name
    have stepped := Declaring.step_enter sound site
    rw [Declaring.entered_use use, Declaring.withUse] at stepped
    cases hit : before.table.resolve before.current name with
    | some id =>
        rw [hit] at looked stepped
        obtain ⟨entry, stored, named⟩ := SymbolTable.name_of_resolve hit
        exact .inl ⟨id, entry, looked, SymbolTable.symbol_eq_ok stored, named,
          stepped⟩
    | none =>
        have marked := Declaring.marked_of_missed complete member
          (Declaring.missed?_missed sound use hit)
        rw [hit] at looked stepped
        exact .inr ⟨looked, stepped, marked⟩
  · intro state route visit site member here marked
    obtain ⟨sound, follows⟩ := Checking.follows_at acyclic complete member
    rw [Checking.history_eq] at member
    have entering : (route, Visit.enter site) ∈ tree.stops := by
      have stop := mem_of_mem_trace member
      rcases here with rfl | rfl
      · exact stop
      · exact Forest.leave_mem_stops_iff.mp stop
    have found := (acyclic.unfolds.mem_stops_iff.mp entering).2
    obtain ⟨name, use⟩ := Declaring.use_of_marked acyclic complete found marked
    have linked := Analysis.linked_of_acyclic acyclic complete site
      (Forest.mem_sites_of_mem_stops entering)
    rw [← follows.unresolved] at marked
    exact Checking.step_unresolved sound linked use marked here

/-- Two functions that share their statements, which use a variable that only
the first function declares, and call the first function. -/
def sharedUse : Tree where
  nodes := #[
    { kind := .declaration (.function "f" (some .void)), line := 1,
      second := some ⟨2⟩, sibling := some ⟨1⟩ },
    { kind := .declaration (.function "g" (some .void)), line := 2,
      second := some ⟨3⟩ },
    { kind := .statement .compound, line := 1, first := some ⟨4⟩,
      second := some ⟨5⟩ },
    { kind := .statement .compound, line := 2, second := some ⟨5⟩ },
    { kind := .declaration (.variable "x" (some .int)), line := 3 },
    { kind := .expression (.identifier "x"), line := 4,
      sibling := some ⟨6⟩ },
    { kind := .expression (.call "f"), line := 5 }]
  root := some ⟨0⟩

def sharedName : Site :=
  ⟨⟨5⟩,
    { kind := .expression (.identifier "x"), line := 4,
      sibling := some ⟨6⟩ }⟩

theorem sharedUse_acyclic : sharedUse.Acyclic := by
  apply Tree.acyclic_of_forward
  intro id next node link found follows
  rcases id with ⟨_ | _ | _ | _ | _ | _ | _ | _⟩ <;> cases found <;>
    cases link <;> cases follows <;> decide

theorem sharedUse_inRange : sharedUse.InRange :=
  Tree.inRange_of_unfolds sharedUse_acyclic.unfolds (by repeat constructor)

theorem accounts_at_shared_use :
    sharedUse.Acyclic ∧ sharedUse.InRange ∧
      ∃ declared, (declare {} sharedUse).result = .ok declared ∧
        declared.table.uses = [("f", 5), ("f", 5), ("x", 4)] ∧
        declared.diagnostics.items = [⟨.undeclared, 4, some "x"⟩] ∧
        declared.facts.unresolved.contains sharedName.id = true ∧
        ∃ state route after, (state, route, Visit.leave sharedName) ∈
            Checking.history declared sharedUse ∧
          Checking.step sharedUse declared.table state (.leave sharedName) =
            .ok after ∧
          after.diagnostics = state.diagnostics := by
  refine ⟨sharedUse_acyclic, sharedUse_inRange, ?_⟩
  obtain ⟨declared, _, ran, _, visited, _, _, _, silent⟩ :=
    uses_accounted_for {} sharedUse_acyclic sharedUse_inRange
  have outcome : (declare {} sharedUse).result.map (fun declared =>
      (declared.table.uses, declared.diagnostics.items,
        declared.facts.unresolved.contains sharedName.id)) =
      .ok ([("f", 5), ("f", 5), ("x", 4)], [⟨.undeclared, 4, some "x"⟩],
        true) := by
    decide +kernel
  rw [ran] at outcome
  simp only [Except.map, Except.ok.injEq, Prod.mk.injEq] at outcome
  obtain ⟨uses, reports, marked⟩ := outcome
  have toBody := @Tree.Leads.step sharedUse sharedUse.root _ ⟨0⟩ ⟨2⟩ _
    .second (.start rfl) rfl rfl
  have leads := @Tree.Leads.step sharedUse sharedUse.root _ ⟨2⟩ ⟨5⟩ _
    .second toBody rfl rfl
  obtain ⟨state, member⟩ := (visited _ sharedName leads rfl).2 _ (.inr rfl)
  obtain ⟨after, stepped, same⟩ :=
    silent state _ _ sharedName member (.inr rfl) marked
  exact ⟨declared, ran, uses, reports, marked, state, _, after, member,
    stepped, same⟩

end CMinusAnalysis
