import Mathlib.Logic.Equiv.Basic
import CMinusAnalysis.Proofs.Analysis.Safety
import CMinusAnalysis.Proofs.Checking.Renaming
import CMinusAnalysis.Proofs.Declaring.Renaming

namespace CMinusAnalysis

/-! Analysis commutes with renaming. How names are spread over buckets decides
where a symbol is filed and nothing else: of a renamed program all is found that
is found of the program itself, with the images of its names. -/

/-- The names of scopes after a renaming. A function gives its scope its name,
and a block keeps the number of its scope. -/
def renamedScopes (rename : String → String) (owners : List Site)
    (names : List String) : List String :=
  List.zipWith (fun owner name =>
    if owner.node.kind.isFunction then rename name else name) owners names

theorem scopeNames_renamed (rename : String → String) {owners : List Site}
    (openers : ∀ owner ∈ owners, owner.node.kind.isFunction = true ∨
      owner.node.kind.isBlock = true) (count : Nat) :
    scopeNames count (owners.map (Site.renamed rename)) =
      renamedScopes rename owners (scopeNames count owners) := by
  induction owners generalizing count with
  | nil => rfl
  | cons owner owners induction =>
      rw [List.forall_mem_cons] at openers
      have onward := induction openers.2
      have image : (owner.renamed rename).node.name? =
          owner.node.name?.map rename := owner.node.name?_renamed
      rcases openers.1 with function | block
      · obtain ⟨name, spec, kind⟩ := Declaring.kind_of_isFunction function
        have named : owner.node.name? = some name := by
          simp [Node.name?, NodeKind.name?, kind]
        simp [scopeNames, image, named, renamedScopes, function, onward]
      · have named := Declaring.name?_block block
        have other : owner.node.kind.isFunction = false :=
          NodeKind.isFunction_of_isBlock block
        simp [scopeNames, image, named, renamedScopes, other, onward]

namespace Declaring

/-- The nodes that scopes are opened for, in order of creation. -/
def owners (builtins : Bool) (tree : Tree) : List Site :=
  (openings (history builtins tree)).map Opening.site

variable {rename : String → String} {builtins : Bool} {tree : Tree}

theorem openers (builtins : Bool) (tree : Tree) :
    ∀ owner ∈ owners builtins tree, owner.node.kind.isFunction = true ∨
      owner.node.kind.isBlock = true := by
  intro owner member
  obtain ⟨opening, listed, rfl⟩ := List.mem_map.mp member
  obtain ⟨⟨state, route, visit⟩, _, opened⟩ := List.mem_filterMap.mp listed
  cases visit with
  | enter site =>
      simp only [opened?, Option.ite_none_right_eq_some, Bool.or_eq_true,
        Bool.and_eq_true, Option.some.injEq] at opened
      obtain ⟨function | ⟨block, _⟩, rfl⟩ := opened
      · exact .inl function
      · exact .inr block
  | leave site => cases opened
  | missing fault => cases opened

theorem names_last (builtins : Bool) (complete : tree.forest.Complete) :
    (last builtins tree).table.scopes.toList.map Scope.name =
      SymbolTable.globalName :: scopeNames 0 (owners builtins tree) := by
  have ledger := ledger_of_visits builtins (stops_result builtins complete)
  rw [← history_eq] at ledger
  rw [SymbolTable.map_name_scopes, ledger.headers, owners, ← ledger.names]
  simp

/-- Both states are sound, and the second one is the first one with other
names. -/
structure Beside (rename : String → String) (state image : Declaring) :
    Prop where
  sound : state.Sound
  other : image.Sound
  renamed : Renamed rename state image

theorem Beside.step {state image next : Declaring} {visit : Visit}
    (beside : Beside rename state image)
    (injective : Function.Injective rename)
    (made : state.step visit = .ok next) :
    ∃ after, image.step (visit.renamed rename) = .ok after ∧
      Beside rename next after := by
  obtain ⟨sound, other, renamed⟩ := beside
  cases visit with
  | enter site =>
      cases (step_enter sound site).symm.trans made
      exact ⟨_, step_enter other _, (grows_entered sound _).sound,
        (grows_entered other _).sound,
        renamed.entered injective sound other site⟩
  | leave site =>
      cases (step_leave sound site).symm.trans made
      exact ⟨_, step_leave other _, (grows_left sound _).sound,
        (grows_left other _).sound, renamed.left site⟩
  | missing fault => cases made

structure Paired (rename : String → String)
    (here there : Declaring × Route × Visit) : Prop where
  beside : Beside rename here.1 there.1
  stop : there.2 = (here.2.1.renamed rename, here.2.2.renamed rename)

theorem Paired.opened? {here there : Declaring × Route × Visit}
    (paired : Paired rename here there) :
    (opened? there).map Opening.site =
      ((opened? here).map Opening.site).map (Site.renamed rename) := by
  obtain ⟨state, route, visit⟩ := here
  obtain ⟨image, stop⟩ := there
  obtain ⟨beside, rfl⟩ := paired
  have waiting : image.awaiting = state.awaiting := beside.renamed.awaiting
  cases visit with
  | enter site =>
      simp only [Declaring.opened?, Visit.renamed, Site.kind_renamed,
        NodeKind.isFunction_renamed, NodeKind.isBlock_renamed, waiting]
      split <;> rfl
  | leave site => rfl
  | missing fault => rfl

theorem openings_paired {past other : List (Declaring × Route × Visit)}
    (paired : List.Forall₂ (Paired rename) past other) :
    (openings other).map Opening.site =
      ((openings past).map Opening.site).map (Site.renamed rename) := by
  simp only [openings, List.map_filterMap]
  induction paired with
  | nil => rfl
  | cons first _ induction =>
      simp only [List.filterMap_cons, first.opened?, induction]

theorem beside_last (injective : Function.Injective rename)
    (fixed : builtins = true →
      rename "input" = "input" ∧ rename "output" = "output")
    (complete : tree.forest.Complete)
    (other : (tree.renamed rename).forest.Complete) :
    Beside rename (last builtins tree) (last builtins (tree.renamed rename)) ∧
      List.Forall₂ (Paired rename) (history builtins tree)
        (history builtins (tree.renamed rename)) := by
  have sound := (grows_origin builtins).sound
  have initially : Beside rename (origin builtins) (origin builtins) :=
    ⟨sound, sound, renamed_origin injective fixed⟩
  obtain ⟨after, reached, ended, stops⟩ := trace_simulation
    (fun stop => (stop.1.renamed rename, stop.2.renamed rename))
    (stops_result builtins complete)
    (fun _ beside made => beside.step injective made) initially
  rw [← Tree.stops_renamed] at reached stops
  cases reached.symm.trans (stops_result builtins other)
  rw [history_eq, history_eq]
  exact ⟨ended, stops.imp fun _ _ ⟨beside, stop⟩ => ⟨beside, stop⟩⟩

end Declaring

theorem SymbolTable.Renamed.scopeRows_perm {rename : String → String}
    {table image : SymbolTable} (renamed : Renamed rename table image)
    {scope counterpart : Scope}
    (moved : counterpart.symbols.Perm scope.symbols) :
    (image.scopeRows counterpart).Perm
      (scope.symbols.filterMap fun id =>
        table.symbols[id.index]?.map fun symbol =>
          row counterpart.name (symbol.renamed rename)) := by
  simp only [scopeRows, renamed.getElem?_symbols, Option.map_map]
  exact moved.filterMap _

namespace Analysis

/-- The second analysis is the first one with other names. The scopes are opened
for the owners, in order; a scope may keep its symbols in another order. -/
structure Renamed (rename : String → String) (owners : List Site)
    (analysis image : Analysis) : Prop where
  facts : image.facts = analysis.facts
  symbols : image.table.symbols =
    analysis.table.symbols.map (Symbol.renamed rename)
  layout : image.table.scopes.toList.map
      (fun scope => (scope.parent, scope.nextLocation)) =
    analysis.table.scopes.toList.map
      fun scope => (scope.parent, scope.nextLocation)
  openers : ∀ owner ∈ owners, owner.node.kind.isFunction = true ∨
    owner.node.kind.isBlock = true
  names : analysis.table.scopes.toList.map Scope.name =
    SymbolTable.globalName :: scopeNames 0 owners
  renames : image.table.scopes.toList.map Scope.name =
    SymbolTable.globalName ::
      renamedScopes rename owners (scopeNames 0 owners)
  diagnostics : image.diagnostics.items =
    analysis.diagnostics.items.map (Diagnostic.renamed rename)
  filed : ∀ {id : ScopeId} {scope counterpart : Scope},
    analysis.table.scope id = .ok scope →
    image.table.scope id = .ok counterpart →
    counterpart.symbols.Perm scope.symbols
  rows : ∀ {id : ScopeId} {scope counterpart : Scope},
    analysis.table.scope id = .ok scope →
    image.table.scope id = .ok counterpart →
    (image.table.scopeRows counterpart).Perm
      (scope.symbols.filterMap fun id =>
        analysis.table.symbols[id.index]?.map fun symbol =>
          SymbolTable.row counterpart.name (symbol.renamed rename))

end Analysis

/-- Analysing a program with every name replaced by its image finds all that
analysing the program finds, with the images of the names. -/
theorem analysis_commutes_with_renaming (config : Config) {tree : Tree}
    (acyclic : tree.Acyclic) (inRange : tree.InRange)
    {rename : String → String} (injective : Function.Injective rename)
    (fixed : config.builtins = true →
      rename "input" = "input" ∧ rename "output" = "output") :
    ∃ analysis image, (analyze config tree).result = .ok analysis ∧
      (analyze config (tree.renamed rename)).result = .ok image ∧
      analysis.Renamed rename (Declaring.owners config.builtins tree)
        image := by
  have complete := acyclic.unfolds.complete (fun _ => .start) inRange
  have other := acyclic.renamed.unfolds.complete (fun _ => .start)
    (inRange.renamed : (tree.renamed rename).InRange)
  obtain ⟨beside, stops⟩ :=
    Declaring.beside_last injective fixed complete other
  have tables := beside.renamed.table
  refine ⟨_, _, Analysis.analyze_of_acyclic config acyclic complete,
    Analysis.analyze_of_acyclic config acyclic.renamed other, ?_⟩
  have checking : Checking.Renamed rename
      (Analysis.declared config.builtins tree).checking
      (Analysis.declared config.builtins (tree.renamed rename)).checking :=
    ⟨beside.renamed.facts, beside.renamed.diagnostics, rfl, rfl, rfl⟩
  have walked := checking.walked tables tree tree.forest
  rw [← Tree.forest_renamed] at walked
  have filed := Declaring.kept_filed.last Declaring.filed_bare
    config.builtins complete
  have refiled := Declaring.kept_filed.last Declaring.filed_bare
    config.builtins other
  have moved {id : ScopeId} {scope counterpart : Scope}
      (stored : (Declaring.last config.builtins tree).table.scope id =
        .ok scope)
      (there : (Declaring.last config.builtins
        (tree.renamed rename)).table.scope id = .ok counterpart) :=
    tables.symbols_perm filed refiled (fetch_eq_ok_iff.mp stored)
      (fetch_eq_ok_iff.mp there)
  have openers := Declaring.openers config.builtins tree
  have renames := Declaring.names_last config.builtins other
  rw [Declaring.owners, Declaring.openings_paired stops,
    ← Declaring.owners, scopeNames_renamed rename openers] at renames
  have diagnostics := congrArg Diagnostics.items walked.diagnostics
  rw [Diagnostics.items_renamed] at diagnostics
  exact {
    facts := walked.facts
    symbols := tables.symbols
    layout := tables.layout
    openers
    names := Declaring.names_last config.builtins complete
    renames
    diagnostics
    filed := moved
    rows := fun stored there => tables.scopeRows_perm (moved stored there) }

/-- A variable and a function in one bucket. The function has a parameter with
the name of the variable and calls itself with it, in a body that it shares with
another function. -/
def collidingNames : Tree where
  nodes := #[
    { kind := .declaration (.variable "aq" (some .int)), line := 1,
      sibling := some ⟨1⟩ },
    { kind := .declaration (.function "ba" (some .void)), line := 2,
      first := some ⟨2⟩, second := some ⟨4⟩, sibling := some ⟨3⟩ },
    { kind := .parameter ⟨some "aq", some .int, true⟩, line := 2 },
    { kind := .declaration (.function "g" (some .void)), line := 3,
      second := some ⟨4⟩ },
    { kind := .statement .compound, line := 4, second := some ⟨5⟩ },
    { kind := .expression (.call "ba"), line := 5, first := some ⟨6⟩,
      sibling := some ⟨7⟩ },
    { kind := .expression (.identifier "aq"), line := 5 },
    { kind := .statement .compound, line := 6 }]
  root := some ⟨0⟩

/-- Renaming takes the variable and the function apart, and the outermost scope
keeps its symbols in another order. -/
theorem renaming_parts_colliding_names :
    (bucketOf "aq" = bucketOf "ba" ∧ bucketOf "aq" ≠ bucketOf "c") ∧
      (analyze {} (collidingNames.renamed (Equiv.swap "ba" "c"))).result.map
          (fun image => image.table.scopes.toList.map Scope.symbols) ≠
        (analyze {} collidingNames).result.map
          (fun analysis => analysis.table.scopes.toList.map Scope.symbols) ∧
      ∃ analysis image, (analyze {} collidingNames).result = .ok analysis ∧
        (analyze {} (collidingNames.renamed
          (Equiv.swap "ba" "c"))).result = .ok image ∧
        analysis.Renamed (Equiv.swap "ba" "c")
          (Declaring.owners true collidingNames) image := by
  have acyclic : collidingNames.Acyclic := by
    apply Tree.acyclic_of_forward
    rintro ⟨_ | _ | _ | _ | _ | _ | _ | _ | _⟩ next node link found
      follows <;> cases found <;> cases link <;> cases follows <;> decide
  have inRange : collidingNames.InRange :=
    Tree.inRange_of_unfolds acyclic.unfolds (by repeat constructor)
  refine ⟨by decide +kernel, by decide +kernel, ?_⟩
  exact analysis_commutes_with_renaming {} acyclic inRange
    (Equiv.swap "ba" "c").injective fun _ => by decide

end CMinusAnalysis
