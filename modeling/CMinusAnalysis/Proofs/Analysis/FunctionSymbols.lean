import CMinusAnalysis.Proofs.Analysis.Passes
import CMinusAnalysis.Proofs.Declaring.Functions

namespace CMinusAnalysis

namespace Declaring

variable {builtins : Bool} {tree : Tree}

theorem enrolment_last (builtins : Bool) (acyclic : tree.Acyclic)
    (complete : tree.forest.Complete) :
    Enrolment builtins tree (last builtins tree) (history builtins tree) := by
  rw [history_eq]
  apply (visits_induction (grows_origin builtins).sound
    (stops_result builtins complete) (motive := Enrolment builtins tree)
    (.origin builtins tree) ?_ ?_).2
  · intro state route site past stop sound enrolment
    exact enrolment.entered sound route
      (acyclic.unfolds.mem_stops_iff.mp stop).2
  · intro state route site past _ _ enrolment
    exact enrolment.left route site

theorem leads_of_mem_history (acyclic : tree.Acyclic) {before : Declaring}
    {route : Route} {site : Site}
    (member : (before, route, Visit.enter site) ∈ history builtins tree) :
    tree.Leads tree.root route site.id ∧ tree.node site.id = .ok site.node := by
  rw [history_eq] at member
  exact acyclic.unfolds.mem_stops_iff.mp (mem_of_mem_trace member)

theorem mem_enrolled_iff {key : NodeId} {function : SymbolId} :
    (key, function) ∈ (history builtins tree).filterMap enrols? ↔
      ∃ before route site name spec,
        (before, route, Visit.enter site) ∈ history builtins tree ∧
        site.id = key ∧
        site.node.kind = .declaration (.function name spec) ∧
        before.Accepts name ∧ function = ⟨before.table.symbols.size⟩ := by
  rw [List.mem_filterMap]
  constructor
  · rintro ⟨⟨before, route, visit⟩, member, enrols⟩
    cases visit with
    | enter site =>
        obtain ⟨name, spec, kind, accepted, rfl, rfl⟩ :=
          enrols?_eq_some_iff.mp enrols
        exact ⟨before, route, site, name, spec, member, rfl, kind, accepted,
          rfl⟩
    | leave site => cases enrols
    | missing fault => cases enrols
  · rintro ⟨before, route, site, name, spec, member, rfl, kind, accepted, rfl⟩
    exact ⟨_, member, enrols?_eq_some_iff.mpr
      ⟨name, spec, kind, accepted, rfl, rfl⟩⟩

theorem function_of_globalSite? {name : String} {before : Declaring}
    {route : Route} {visit : Visit} {site : Site}
    (giving : globalSite? name (before, route, visit) = some site)
    (function : site.node.kind.isFunction = true) :
    visit = .enter site ∧ before.Accepts name ∧
      ∃ spec, site.node.kind = .declaration (.function name spec) := by
  cases visit with
  | enter target =>
      obtain ⟨rfl, accepted, introduction, introduces, rfl⟩ :=
        globalSite?_eq_some_iff.mp giving
      obtain ⟨name, spec, kind⟩ := kind_of_isFunction function
      rw [kind] at introduces
      cases introduces
      exact ⟨rfl, accepted, spec, kind⟩
  | leave target => cases giving
  | missing fault => cases giving

theorem isSome_globalFunction?_iff (builtins : Bool) (acyclic : tree.Acyclic)
    (complete : tree.forest.Complete) (name : String) :
    ((last builtins tree).table.globalFunction? name).isSome ↔
      name ∈ runtimeNames builtins ∨
        ∃ site, (history builtins tree).findSome? (globalSite? name) =
          some site ∧ site.node.kind.isFunction = true := by
  have enrolment := enrolment_last builtins acyclic complete
  have global := (Analysis.sound_last builtins tree).global
  simp only [Option.isSome_iff_exists,
    SymbolTable.globalFunction?_eq_some_iff global]
  constructor
  · rintro ⟨id, found, entry, stored, function⟩
    obtain ⟨named, there, same⟩ := SymbolTable.name_of_find? found
    cases stored.symm.trans there
    obtain ⟨_, taken | ⟨key, recorded⟩⟩ := enrolment.functions stored function
    · exact .inl (same ▸ taken)
    · refine (enrolment.given found).imp_right ?_
      rintro ⟨site, first, entries⟩
      exact ⟨site, first, ((entries key).mp recorded).2⟩
  · rintro (taken | ⟨site, first, function⟩)
    · obtain ⟨id, entry, found, stored, function⟩ := enrolment.runtime taken
      exact ⟨id, found, entry, stored, function⟩
    · obtain ⟨⟨before, route, visit⟩, member, giving⟩ :=
        List.exists_of_findSome?_eq_some first
      obtain ⟨entered, accepted, kind⟩ := function_of_globalSite? giving function
      subst entered
      obtain ⟨spec, kind⟩ := kind
      have recorded := enrolment.recorded.mpr (mem_enrolled_iff.mpr
        ⟨before, route, site, name, spec, member, rfl, kind, accepted, rfl⟩)
      obtain ⟨node, called, _, entry, node_eq, again, _, found, stored,
        function, _⟩ := enrolment.described recorded
      cases (leads_of_mem_history acyclic member).2.symm.trans node_eq
      cases kind.symm.trans again
      exact ⟨_, found, entry, stored, function⟩

end Declaring

theorem Analysis.isSome_function? (analysis : Analysis) (name : String) :
    (analysis.function? name).isSome =
      (analysis.table.globalFunction? name).isSome := by
  unfold function?
  cases hit : analysis.table.globalFunction? name with
  | none => rfl
  | some id =>
      obtain ⟨entry, stored, _⟩ :=
        SymbolTable.isFunction_of_globalFunction? hit
      simp [stored]

theorem Checking.gained_uncallable {tree : Tree} {table : SymbolTable}
    {site : Site} {name : String}
    (kind : site.node.kind = .expression (.call name))
    (unknown : table.globalFunction? name = none) (state : Checking) :
    state.gained tree table site = none := by
  simp only [gained, kind]
  split
  · rfl
  · apply Option.bind_eq_none_iff.mpr
    intro callee called
    obtain ⟨id, found, stored⟩ := Option.bind_eq_some_iff.mp called
    rw [if_neg]
    intro function
    rw [SymbolTable.globalFunction?_eq_some found stored function] at unknown
    cases unknown

theorem Analysis.typeOf_uncallable (builtins : Bool) {tree : Tree}
    (acyclic : tree.Acyclic) {site : Site} {name : String}
    (node : tree.node site.id = .ok site.node)
    (kind : site.node.kind = .expression (.call name))
    (unknown : (declared builtins tree).table.globalFunction? name = none) :
    ((declared builtins tree).checked tree).typeOf site.id = none := by
  have initially : (declared builtins tree).checking.facts.types.get? site.id =
      none := by
    rw [checking, untyped]
    rfl
  rw [← initially]
  apply Checking.types_walked
  intro other member same
  have found := acyclic.unfolds.node_of_mem_sites member
  rw [same, node, Except.ok.injEq] at found
  exact Checking.gained_uncallable (found ▸ kind) unknown

/-- Every function symbol lives in the outermost scope. The recorded functions
are the function symbols but for the runtime functions, each recorded for one
node only: a function of that name, with the symbol's type for a result. A node
is recorded for the symbol that one of its visits was accepted for, and for none
if none was. A name can be called just when it is a runtime function's or the
first declaration that the outermost scope took it from was a function; other
calls get no type. -/
theorem function_symbols_biject (config : Config) {tree : Tree}
    (acyclic : tree.Acyclic) (inRange : tree.InRange) :
    ∃ analysis, (analyze config tree).result = .ok analysis ∧
      (∀ (id : SymbolId) (symbol : Symbol),
        analysis.table.symbol id = .ok symbol → symbol.isFunction = true →
        symbol.scope = ScopeId.global ∧
          analysis.table.lookupLocal ScopeId.global symbol.name =
            .ok (some id)) ∧
      (∀ (left right : NodeId) (function : SymbolId),
        analysis.facts.functions.get? left = some function →
        analysis.facts.functions.get? right = some function →
        left = right) ∧
      (∀ function : SymbolId,
        (∃ key, analysis.facts.functions.get? key = some function) ↔
          ∃ symbol, analysis.table.symbol function = .ok symbol ∧
            symbol.isFunction = true ∧
            symbol.name ∉ Declaring.runtimeNames config.builtins) ∧
      (∀ (key : NodeId) (function : SymbolId),
        analysis.facts.functions.get? key = some function →
        ∃ route node name spec symbol, tree.Leads tree.root route key ∧
          tree.node key = .ok node ∧
          node.kind = .declaration (.function name spec) ∧
          analysis.table.symbol function = .ok symbol ∧
          symbol.name = name ∧ symbol.type = Ty.ofReturnSpec spec) ∧
      (∀ (key : NodeId) (function : SymbolId),
        analysis.facts.functions.get? key = some function ↔
          ∃ before route site name spec, (before, route, Visit.enter site) ∈
              Declaring.history config.builtins tree ∧
            site.id = key ∧
            site.node.kind = .declaration (.function name spec) ∧
            before.Accepts name ∧ function = ⟨before.table.symbols.size⟩) ∧
      (∀ name : String, (analysis.function? name).isSome ↔
        name ∈ Declaring.runtimeNames config.builtins ∨
          ∃ site, (Declaring.history config.builtins tree).findSome?
              (Declaring.globalSite? name) = some site ∧
            site.node.kind.isFunction = true) ∧
      ∀ (site : Site) (name : String), tree.node site.id = .ok site.node →
        site.node.kind = .expression (.call name) →
        name ∉ Declaring.runtimeNames config.builtins →
        (∀ (before : Declaring) (route : Route) (other : Site)
          (spec : Option TypeSpec), (before, route, Visit.enter other) ∈
            Declaring.history config.builtins tree →
          other.node.kind = .declaration (.function name spec) →
          ¬ before.Accepts name) →
        analysis.typeOf site.id = none := by
  have complete := acyclic.unfolds.complete (fun _ => .start) inRange
  have sound := Analysis.sound_last config.builtins tree
  have enrolment :=
    Declaring.enrolment_last config.builtins acyclic complete
  have functions : ((Analysis.declared config.builtins tree).checked
      tree).facts.functions =
        (Declaring.last config.builtins tree).facts.functions :=
    (Checking.follows_walked ⟨rfl, rfl, rfl⟩ tree.forest).functions
  have callable := Declaring.isSome_globalFunction?_iff config.builtins acyclic
    complete
  refine ⟨_, Analysis.analyze_of_acyclic config acyclic complete, ?_⟩
  rw [functions]
  refine ⟨?_, ?_, ?_, ?_, ?_, ?_, ?_⟩
  · intro id symbol stored function
    have held := fetch_eq_ok_iff.mp stored
    have found := (enrolment.functions held function).1
    refine ⟨?_, ?_⟩
    · exact sound.coherent.scope_of_find? found held
    · exact (SymbolTable.lookupLocal_eq sound.global _).trans
        (congrArg _ found)
  · exact fun _ _ _ => enrolment.injective
  · exact enrolment.isRecorded_iff
  · intro key function recorded
    obtain ⟨node, name, spec, symbol, found, kind, _, hit, stored, _, typed⟩ :=
      enrolment.described recorded
    obtain ⟨before, route, site, _, _, member, rfl, _⟩ :=
      Declaring.mem_enrolled_iff.mp (enrolment.recorded.mp recorded)
    obtain ⟨_, there, named⟩ := SymbolTable.name_of_find? hit
    cases stored.symm.trans there
    exact ⟨route, node, name, spec, symbol,
      (Declaring.leads_of_mem_history acyclic member).1, found, kind,
      SymbolTable.symbol_eq_ok stored, named, typed⟩
  · intro key function
    rw [enrolment.recorded, Declaring.mem_enrolled_iff]
  · intro name
    rw [← callable, Analysis.isSome_function?]
    rfl
  · intro site name node kind ours refused
    apply Analysis.typeOf_uncallable config.builtins acyclic node kind
    apply Option.not_isSome_iff_eq_none.mp
    intro known
    rcases (callable name).mp known with taken | ⟨target, first, function⟩
    · exact ours taken
    · obtain ⟨⟨before, route, visit⟩, member, giving⟩ :=
        List.exists_of_findSome?_eq_some first
      obtain ⟨rfl, accepted, spec, declared⟩ :=
        Declaring.function_of_globalSite? giving function
      exact refused before route target spec member declared accepted

/-- A variable, a function of the same name, and a function with a body that
calls this name and another, declares the other as a function and goes on to the
last function of the program. -/
def sharedFunction : Tree where
  nodes := #[
    { kind := .declaration (.variable "x" (some .int)), line := 1,
      sibling := some ⟨1⟩ },
    { kind := .declaration (.function "x" (some .int)), line := 2,
      sibling := some ⟨2⟩ },
    { kind := .declaration (.function "f" (some .void)), line := 3,
      second := some ⟨3⟩, sibling := some ⟨7⟩ },
    { kind := .statement .compound, line := 3, first := some ⟨4⟩ },
    { kind := .expression (.call "g"), line := 4, sibling := some ⟨5⟩ },
    { kind := .expression (.call "x"), line := 5, sibling := some ⟨6⟩ },
    { kind := .declaration (.function "g" (some .int)), line := 6,
      sibling := some ⟨7⟩ },
    { kind := .declaration (.function "h" (some .int)), line := 7 }]
  root := some ⟨0⟩

def firstVariable : Site :=
  ⟨⟨0⟩,
    { kind := .declaration (.variable "x" (some .int)), line := 1,
      sibling := some ⟨1⟩ }⟩

def variableCall : Site :=
  ⟨⟨5⟩,
    { kind := .expression (.call "x"), line := 5, sibling := some ⟨6⟩ }⟩

theorem sharedFunction_acyclic : sharedFunction.Acyclic := by
  apply Tree.acyclic_of_forward
  intro id next node link found follows
  rcases id with ⟨_ | _ | _ | _ | _ | _ | _ | _ | _⟩ <;> cases found <;>
    cases link <;> cases follows <;> decide

theorem sharedFunction_inRange : sharedFunction.InRange :=
  Tree.inRange_of_unfolds sharedFunction_acyclic.unfolds
    (by repeat constructor)

theorem functions_at_shared_function :
    sharedFunction.Acyclic ∧ sharedFunction.InRange ∧
      ∃ analysis, (analyze {} sharedFunction).result = .ok analysis ∧
        analysis.facts.functions.get? ⟨7⟩ = some ⟨4⟩ ∧
        (analysis.function? "h").isSome = true ∧
        analysis.typeOf variableCall.id = none ∧
        ∃ symbol, analysis.table.symbol ⟨4⟩ = .ok symbol ∧
          symbol.name = "h" ∧ symbol.type = .integer ∧
          symbol.scope = ScopeId.global := by
  refine ⟨sharedFunction_acyclic, sharedFunction_inRange, ?_⟩
  obtain ⟨analysis, ran, global, _, recorded, described, _, callable,
    untyped⟩ := function_symbols_biject {} sharedFunction_acyclic
      sharedFunction_inRange
  have outcome : (analyze {} sharedFunction).result.map (fun analysis =>
      analysis.facts.functions.get? ⟨7⟩) = .ok (some ⟨4⟩) := by
    decide +kernel
  rw [ran] at outcome
  simp only [Except.map, Except.ok.injEq] at outcome
  obtain ⟨_, _, _, _, symbol, _, found, kind, stored, named, typed⟩ :=
    described _ _ outcome
  cases found
  cases kind
  obtain ⟨_, held, function, _⟩ := (recorded _).mp ⟨_, outcome⟩
  cases stored.symm.trans held
  have first : ((Declaring.history true sharedFunction).findSome?
      (Declaring.globalSite? "h")).any (·.node.kind.isFunction) = true := by
    decide +kernel
  have accepting : ∀ moment ∈ Declaring.history true sharedFunction,
      moment.1.Accepts "x" → moment.2.2 = Visit.enter firstVariable := by
    decide +kernel
  refine ⟨analysis, ran, outcome, ?_, ?_, symbol, stored, named, typed,
    (global _ _ stored function).1⟩
  · exact (callable "h").mpr (.inr ((Option.any_eq_true _ _).mp first))
  · refine untyped variableCall "x" rfl rfl (by decide) ?_
    intro before route other spec member declares accepted
    cases accepting _ member accepted
    cases declares

end CMinusAnalysis
