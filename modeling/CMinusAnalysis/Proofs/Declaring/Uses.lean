import CMinusAnalysis.Proofs.Declaring.Declarations

namespace CMinusAnalysis

/-! The accounts of uses. A use is noted at the symbol that its name is looked
up to, or its name is looked up in vain; then it is marked and reported. So the
lines of the symbols and the reports balance with the uses, visit by visit. -/

/-- The uses that are noted at a symbol. Its first line is that of its
declaration. -/
def Symbol.uses (symbol : Symbol) : List (String × Nat) :=
  symbol.lines.tail.map fun line => (symbol.name, line)

def SymbolTable.uses (table : SymbolTable) : List (String × Nat) :=
  table.symbols.toList.flatMap Symbol.uses

def Visit.use? : Visit → Option (String × Nat)
  | .enter site => site.node.kind.use?.map fun name => (name, site.node.line)
  | _ => none

theorem Symbol.uses_addLine {symbol : Symbol}
    (dated : symbol.latestLines ≠ []) (line : Nat) :
    (symbol.addLine line).uses = symbol.uses ++ [(symbol.name, line)] := by
  simp only [uses, lines_addLine,
    List.tail_append_of_ne_nil (lines_ne_nil dated), List.map_append]
  rfl

namespace SymbolTable

variable {table before after : SymbolTable}

theorem Gains.uses_eq {symbol : Symbol} (gains : before.Gains after symbol)
    (unused : symbol.lines.tail = []) : after.uses = before.uses := by
  have none : symbol.uses = [] := by
    rw [Symbol.uses, unused]
    rfl
  rw [uses, uses, List.flatMap_def, List.flatMap_def,
    gains.map Symbol.uses fun _ => rfl, none, List.flatten_append]
  exact List.append_nil _

theorem exists_split_modifySymbol {target : SymbolId} {symbol : Symbol}
    (stored : table.symbols[target.index]? = some symbol)
    (change : Symbol → Symbol) :
    ∃ left right, table.symbols.toList = left ++ symbol :: right ∧
      (table.modifySymbol target change).symbols.toList =
        left ++ change symbol :: right := by
  rw [← Array.getElem?_toList] at stored
  obtain ⟨inside, rfl⟩ := List.getElem?_eq_some_iff.mp stored
  refine ⟨table.symbols.toList.take target.index,
    table.symbols.toList.drop (target.index + 1), ?_, ?_⟩
  · rw [← List.drop_eq_getElem_cons inside, List.take_append_drop]
  · rw [modifySymbol, Array.toList_modify,
      List.modify_eq_take_cons_drop inside]

theorem uses_addLine (dated : table.Dated) {target : SymbolId}
    {symbol : Symbol} (stored : table.symbols[target.index]? = some symbol)
    (line : Nat) :
    (table.modifySymbol target (·.addLine line)).uses.Perm
      (table.uses ++ [(symbol.name, line)]) := by
  obtain ⟨left, right, earlier, later⟩ :=
    exists_split_modifySymbol stored (·.addLine line)
  have known : symbol.latestLines ≠ [] := by
    apply dated
    rw [earlier]
    exact List.mem_append_right _ List.mem_cons_self
  simp only [uses, earlier, later, List.flatMap_append, List.flatMap_cons,
    List.append_assoc, Symbol.uses_addLine known]
  refine List.Perm.append_left _ (List.Perm.append_left _ ?_)
  exact List.perm_append_comm

end SymbolTable

namespace Declaring

/-- The line that a visit adds to the symbol. -/
def usedAt? (id : SymbolId) : Declaring × Route × Visit → Option Nat
  | (state, _, .enter site) =>
      site.node.kind.use?.bind fun name =>
        if state.table.lookup state.current name = .ok (some id) then
          some site.node.line
        else none
  | _ => none

/-- The node at which a visit looks a name up in vain, and the name. -/
def missed? : Declaring × Route × Visit → Option (Site × String)
  | (state, _, .enter site) =>
      site.node.kind.use?.bind fun name =>
        if state.table.lookup state.current name = .ok none then
          some (site, name)
        else none
  | _ => none

/-- Where the symbol comes from: a runtime function stands on line 0, any other
symbol on the line of the visit that created it. -/
inductive DeclaredOn (builtins : Bool)
    (past : List (Declaring × Route × Visit)) (id : SymbolId) : Nat → Prop
  | runtime (known : id.index < (runtime builtins).length) :
      DeclaredOn builtins past id 0
  | visit {before after : Declaring} {route : Route} {site : Site}
      {introduction : Introduction}
      (made : (before, route, Visit.enter site) ∈ past)
      (introduces : site.node.kind.introduces? = some introduction)
      (stepped : before.step (.enter site) = .ok after)
      (creates : before.Creates after introduction site.node.line)
      (last : id = ⟨before.table.symbols.size⟩) :
      DeclaredOn builtins past id site.node.line

variable {state : Declaring} {site : Site} {route : Route} {builtins : Bool}
  {past : List (Declaring × Route × Visit)}

theorem DeclaredOn.later {id : SymbolId} {line : Nat}
    (declared : DeclaredOn builtins past id line)
    (more : List (Declaring × Route × Visit)) :
    DeclaredOn builtins (past ++ more) id line := by
  cases declared with
  | runtime known => exact .runtime known
  | visit made introduces stepped creates last =>
      exact .visit (List.mem_append_left _ made) introduces stepped creates
        last

theorem usedAt?_unused (unused : site.node.kind.use? = none)
    (id : SymbolId) : usedAt? id (state, route, .enter site) = none := by
  simp [usedAt?, unused]

theorem missed?_unused (unused : site.node.kind.use? = none) :
    missed? (state, route, .enter site) = none := by
  simp [missed?, unused]

theorem use?_unused (unused : site.node.kind.use? = none) :
    (Visit.enter site).use? = none := by
  simp [Visit.use?, unused]

theorem use?_used {name : String} (use : site.node.kind.use? = some name) :
    (Visit.enter site).use? = some (name, site.node.line) := by
  simp [Visit.use?, use]

section

variable {name : String} (sound : state.Sound)
  (use : site.node.kind.use? = some name)

include sound use

theorem usedAt?_noted {symbol : SymbolId}
    (resolves : state.table.resolve state.current name = some symbol)
    (id : SymbolId) :
    usedAt? id (state, route, .enter site) =
      if symbol = id then some site.node.line else none := by
  simp [usedAt?, use, SymbolTable.lookup_eq sound.coherent sound.current,
    resolves]

theorem missed?_noted {symbol : SymbolId}
    (resolves : state.table.resolve state.current name = some symbol) :
    missed? (state, route, .enter site) = none := by
  simp [missed?, use, SymbolTable.lookup_eq sound.coherent sound.current,
    resolves]

theorem usedAt?_missed
    (unresolved : state.table.resolve state.current name = none)
    (id : SymbolId) : usedAt? id (state, route, .enter site) = none := by
  simp [usedAt?, use, SymbolTable.lookup_eq sound.coherent sound.current,
    unresolved]

theorem missed?_missed
    (unresolved : state.table.resolve state.current name = none) :
    missed? (state, route, .enter site) = some (site, name) := by
  simp [missed?, use, SymbolTable.lookup_eq sound.coherent sound.current,
    unresolved]

end

theorem marked_entered (sound : state.Sound) (route : Route) (site : Site)
    (id : NodeId) :
    (state.entered site).facts.unresolved.contains id = true ↔
      state.facts.unresolved.contains id = true ∨
        id ∈ (missed? (state, route, .enter site)).toList.map
          fun miss => miss.1.id := by
  have idle (unused : site.node.kind.use? = none) :
      (state.entered site).facts.unresolved.contains id = true ↔
        state.facts.unresolved.contains id = true ∨
          id ∈ (missed? (state, route, .enter site)).toList.map
            fun miss => miss.1.id := by
    rw [unresolved_of_unused state unused, missed?_unused unused]
    simp
  cases sound.effect site with
  | created introduces => exact idle (NodeKind.use?_of_introduces? introduces)
  | refused introduces => exact idle (NodeKind.use?_of_introduces? introduces)
  | spared unused => exact idle unused
  | noted use resolves same =>
      rw [same, missed?_noted sound use resolves]
      simp
  | missed use unresolved same =>
      rw [same, missed?_missed sound use unresolved]
      by_cases own : id = site.id <;>
        simp [Facts.setUnresolved, NodeTable.contains, NodeTable.get?_insert,
          own]

def undeclared (state : Declaring) : List Diagnostic :=
  state.diagnostics.items.filter fun diagnostic =>
    diagnostic.kind = .undeclared

theorem Refusal.ne_undeclared {kind : NodeKind} {introduction : Introduction}
    {reported : DiagnosticKind}
    (refusal : state.Refusal kind introduction reported) :
    reported ≠ .undeclared := by
  cases refusal with
  | taken =>
      unfold NodeKind.redeclared
      split <;> simp
  | inner => simp

theorem undeclared_entered (sound : state.Sound) (route : Route)
    (site : Site) :
    (state.entered site).undeclared = state.undeclared ++
      (missed? (state, route, .enter site)).toList.map fun miss =>
        ⟨.undeclared, miss.1.node.line, some miss.2⟩ := by
  have idle (none : missed? (state, route, .enter site) = none)
      (same : (state.entered site).undeclared = state.undeclared) :
      (state.entered site).undeclared = state.undeclared ++
        (missed? (state, route, .enter site)).toList.map fun miss =>
          ⟨.undeclared, miss.1.node.line, some miss.2⟩ := by
    rw [none, same]
    simp
  cases sound.effect site with
  | created introduces creates =>
      obtain ⟨_, _, _, same⟩ := creates
      exact idle (missed?_unused (NodeKind.use?_of_introduces? introduces))
        (by rw [undeclared, same, undeclared])
  | refused introduces refuses refusal =>
      refine idle (missed?_unused (NodeKind.use?_of_introduces? introduces)) ?_
      rw [undeclared, refuses.diagnostics, Diagnostics.items_add,
        List.filter_append, List.filter_cons_of_neg]
      · exact List.append_nil _
      · simp [refusal.ne_undeclared]
  | spared unused spares =>
      exact idle (missed?_unused unused)
        (by rw [undeclared, spares.diagnostics, undeclared])
  | noted use resolves same =>
      exact idle (missed?_noted sound use resolves) (by rw [same]; rfl)
  | missed use unresolved same =>
      rw [same, missed?_missed sound use unresolved]
      simp [undeclared]

theorem uses_entered (sound : state.Sound) (dated : state.table.Dated)
    (route : Route) (site : Site) :
    (state.table.uses ++ (Visit.enter site).use?.toList).Perm
      ((state.entered site).table.uses ++
        (missed? (state, route, .enter site)).toList.map fun miss =>
          (miss.2, miss.1.node.line)) := by
  have idle (unused : site.node.kind.use? = none)
      (same : (state.entered site).table.uses = state.table.uses) :
      (state.table.uses ++ (Visit.enter site).use?.toList).Perm
        ((state.entered site).table.uses ++
          (missed? (state, route, .enter site)).toList.map fun miss =>
            (miss.2, miss.1.node.line)) := by
    rw [use?_unused unused, missed?_unused unused, same]
    exact List.Perm.refl _
  cases sound.effect site with
  | created introduces creates =>
      obtain ⟨_, _, gains, _⟩ := creates
      exact idle (NodeKind.use?_of_introduces? introduces) (gains.uses_eq rfl)
  | refused introduces refuses =>
      exact idle (NodeKind.use?_of_introduces? introduces)
        (by rw [SymbolTable.uses, refuses.symbols, SymbolTable.uses])
  | spared unused spares =>
      exact idle unused
        (by rw [SymbolTable.uses, spares.symbols, SymbolTable.uses])
  | @noted name symbol use resolves same =>
      obtain ⟨entry, stored, named⟩ := SymbolTable.name_of_resolve resolves
      rw [same, use?_used use, missed?_noted sound use resolves, ← named]
      simpa using (SymbolTable.uses_addLine dated stored _).symm
  | missed use unresolved same =>
      rw [same, use?_used use, missed?_missed sound use unresolved]
      exact List.Perm.refl _

/-- The accounts after some visits. -/
structure Accounts (builtins : Bool) (state : Declaring)
    (past : List (Declaring × Route × Visit)) : Prop where
  dated : state.table.Dated
  lines : ∀ {id : SymbolId} {symbol : Symbol},
    state.table.symbol id = .ok symbol → ∃ line,
      DeclaredOn builtins past id line ∧
      symbol.lines = line :: past.filterMap (usedAt? id)
  unborn : ∀ {id : SymbolId}, state.table.symbols.size ≤ id.index →
    past.filterMap (usedAt? id) = []
  marks : ∀ id, state.facts.unresolved.contains id = true ↔
    id ∈ (past.filterMap missed?).map fun miss => miss.1.id
  reports : state.undeclared = (past.filterMap missed?).map fun miss =>
    ⟨.undeclared, miss.1.node.line, some miss.2⟩
  balance : (past.filterMap fun moment => moment.2.2.use?).Perm
    (state.table.uses ++ (past.filterMap missed?).map fun miss =>
      (miss.2, miss.1.node.line))

namespace Accounts

theorem lines_entered (accounts : Accounts builtins state past)
    (sound : state.Sound) (route : Route) (site : Site) {id : SymbolId}
    {symbol : Symbol}
    (stored : (state.entered site).table.symbol id = .ok symbol) :
    ∃ line, DeclaredOn builtins (past ++ [(state, route, Visit.enter site)]) id
        line ∧
      symbol.lines = line ::
        (past ++ [(state, route, Visit.enter site)]).filterMap (usedAt? id) := by
  -- A symbol that was there keeps its lines and gets the one of this visit.
  have older {entry : Symbol} (held : state.table.symbol id = .ok entry)
      (lines : symbol.lines = entry.lines ++
        (usedAt? id (state, route, .enter site)).toList) :
      ∃ line, DeclaredOn builtins (past ++ [(state, route, Visit.enter site)]) id
          line ∧
        symbol.lines = line ::
          (past ++ [(state, route, Visit.enter site)]).filterMap (usedAt? id) := by
    obtain ⟨line, declared, before⟩ := accounts.lines held
    refine ⟨line, declared.later _, ?_⟩
    rw [lines, before, filterMap_concat, List.cons_append]
  have untouched (none : usedAt? id (state, route, .enter site) = none) :
      symbol.lines = symbol.lines ++
        (usedAt? id (state, route, .enter site)).toList := by
    rw [none]
    exact (List.append_nil _).symm
  cases sound.effect site with
  | created introduces creates =>
      have none : usedAt? id (state, route, .enter site) = none :=
        usedAt?_unused (NodeKind.use?_of_introduces? introduces) id
      have created := creates
      obtain ⟨_, _, gains, _⟩ := created
      rcases gains.symbol_cases stored with ⟨entry, held, same⟩ | ⟨last, rfl⟩
      · have lines : symbol.lines = entry.lines :=
          show symbol.unsigned.lines = entry.unsigned.lines by rw [same]
        exact older held (lines ▸ untouched none)
      · refine ⟨site.node.line, .visit (List.mem_append_right _
          List.mem_cons_self) introduces (step_enter sound site) creates last,
          ?_⟩
        rw [filterMap_concat, none, accounts.unborn (by rw [last])]
        rfl
  | refused introduces refuses =>
      rw [SymbolTable.symbol, refuses.symbols] at stored
      exact older stored (untouched
        (usedAt?_unused (NodeKind.use?_of_introduces? introduces) id))
  | spared unused spares =>
      rw [SymbolTable.symbol, spares.symbols] at stored
      exact older stored (untouched (usedAt?_unused unused id))
  | @noted name target use resolves same =>
      rw [same] at stored
      obtain ⟨entry, held, rfl⟩ := SymbolTable.symbol_modifySymbol stored
      refine older held ?_
      rw [usedAt?_noted sound use resolves]
      split
      · exact Symbol.lines_addLine _ _
      · exact (List.append_nil _).symm
  | missed use unresolved same =>
      rw [same] at stored
      exact older stored (untouched (usedAt?_missed sound use unresolved id))

theorem unborn_entered (accounts : Accounts builtins state past)
    (sound : state.Sound) (route : Route) (site : Site) {id : SymbolId}
    (beyond : (state.entered site).table.symbols.size ≤ id.index) :
    (past ++ [(state, route, Visit.enter site)]).filterMap (usedAt? id) = [] := by
  have older : state.table.symbols.size ≤ id.index := by
    apply Nat.le_of_not_lt
    intro inside
    have still := (grows_entered sound site).table.symbol_lt inside
    omega
  have none : usedAt? id (state, route, .enter site) = none := by
    cases sound.effect site with
    | created introduces =>
        exact usedAt?_unused (NodeKind.use?_of_introduces? introduces) id
    | refused introduces =>
        exact usedAt?_unused (NodeKind.use?_of_introduces? introduces) id
    | spared unused => exact usedAt?_unused unused id
    | @noted name target use resolves same =>
        obtain ⟨entry, stored⟩ := SymbolTable.exists_of_resolve resolves
        have inside := (Array.getElem?_eq_some_iff.mp stored).1
        rw [usedAt?_noted sound use resolves, if_neg]
        rintro rfl
        omega
    | missed use unresolved =>
        exact usedAt?_missed sound use unresolved id
  rw [filterMap_concat, accounts.unborn older, none]
  rfl

theorem entered (accounts : Accounts builtins state past)
    (sound : state.Sound) (route : Route) (site : Site) :
    Accounts builtins (state.entered site)
      (past ++ [(state, route, Visit.enter site)]) where
  dated := kept_dated.entered sound site accounts.dated
  lines := accounts.lines_entered sound route site
  unborn := accounts.unborn_entered sound route site
  marks id := by
    rw [marked_entered sound route, accounts.marks, filterMap_concat,
      List.map_append, List.mem_append]
  reports := by
    rw [undeclared_entered sound route, accounts.reports, filterMap_concat,
      List.map_append]
  balance := by
    rw [filterMap_concat, filterMap_concat, List.map_append]
    have here := uses_entered sound accounts.dated route site
    generalize (missed? (state, route, .enter site)).toList.map
      (fun miss => (miss.2, miss.1.node.line)) = missed at here ⊢
    have before := accounts.balance
    generalize (past.filterMap missed?).map
      (fun miss => (miss.2, miss.1.node.line)) = earlier at before ⊢
    have aside : ((state.table.uses ++ earlier) ++
        (Visit.enter site).use?.toList).Perm
          ((state.table.uses ++ (Visit.enter site).use?.toList) ++
            earlier) := by
      rw [List.append_assoc, List.append_assoc]
      exact List.perm_append_comm.append_left _
    have back : (((state.entered site).table.uses ++ missed) ++ earlier).Perm
        ((state.entered site).table.uses ++ (earlier ++ missed)) := by
      rw [List.append_assoc]
      exact List.perm_append_comm.append_left _
    exact (before.append_right _).trans
      (aside.trans ((here.append_right _).trans back))

theorem left (accounts : Accounts builtins state past) (route : Route)
    (site : Site) :
    Accounts builtins (state.left site)
      (past ++ [(state, route, Visit.leave site)]) where
  dated := by
    rw [table_left]
    exact accounts.dated
  lines {id symbol} stored := by
    rw [table_left] at stored
    obtain ⟨line, declared, lines⟩ := accounts.lines stored
    refine ⟨line, declared.later _, ?_⟩
    rw [filterMap_concat_none rfl, lines]
  unborn {id} beyond := by
    rw [table_left] at beyond
    rw [filterMap_concat_none rfl, accounts.unborn beyond]
  marks id := by
    rw [facts_left, filterMap_concat_none rfl, accounts.marks]
  reports := by
    have same : (state.left site).undeclared = state.undeclared :=
      congrArg (List.filter _) (items_left state site)
    rw [same, filterMap_concat_none rfl, accounts.reports]
  balance := by
    rw [table_left, filterMap_concat_none rfl, filterMap_concat_none rfl]
    exact accounts.balance

end Accounts

theorem accounts_origin (builtins : Bool) :
    Accounts builtins (origin builtins) [] := by
  obtain ⟨facts, diagnostics, _⟩ := origin_fields builtins
  have known {index : Nat} {symbol : Symbol}
      (stored : (origin builtins).table.symbols.toList[index]? =
        some symbol) :
      index < (runtime builtins).length ∧ symbol.lines = [0] := by
    have listed : (runtime builtins)[index]? = some symbol.unsigned := by
      rw [← unsigned_origin, List.getElem?_map, stored]
      rfl
    have lines := lines_runtime (List.mem_of_getElem? listed)
    exact ⟨(List.getElem?_eq_some_iff.mp listed).1, lines⟩
  constructor
  · exact kept_dated.origin builtins dated_bare
  · intro id symbol stored
    have held := fetch_eq_ok_iff.mp stored
    rw [← Array.getElem?_toList] at held
    obtain ⟨inside, lines⟩ := known held
    exact ⟨0, .runtime inside, lines⟩
  · intro _ _
    rfl
  · intro id
    rw [facts]
    simp [Facts.blank, NodeTable.contains]
  · rw [undeclared, diagnostics]
    rfl
  · have none : (origin builtins).table.uses = [] := by
      apply List.flatMap_eq_nil_iff.mpr
      intro symbol member
      obtain ⟨index, stored⟩ := List.mem_iff_getElem?.mp member
      rw [Symbol.uses, (known stored).2]
      rfl
    rw [none]
    exact List.Perm.refl _

end Declaring

end CMinusAnalysis
