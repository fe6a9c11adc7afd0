import CMinusAnalysis.Proofs.Declaring.Tables

namespace CMinusAnalysis

/-! The ledger of scopes. Scopes are opened where a function is entered, and
where a block is entered while no body is awaited; nothing else adds to them or
changes their names and parents. So the scopes of a table are those that the
visits opened, in order, and blocks are numbered as they come. -/

namespace SymbolTable

def headers (table : SymbolTable) : List (String × Option ScopeId) :=
  table.scopes.toList.map fun scope => (scope.name, scope.parent)

variable {table : SymbolTable}

@[simp] theorem length_headers (table : SymbolTable) :
    table.headers.length = table.scopes.size := by
  simp [headers]

theorem map_name_scopes (table : SymbolTable) :
    table.scopes.toList.map Scope.name = table.headers.map Prod.fst := by
  simp [headers]

theorem map_parent_scopes (table : SymbolTable) :
    table.scopes.toList.map Scope.parent = table.headers.map Prod.snd := by
  simp [headers]

@[simp] theorem headers_opened (name : String) (parent : ScopeId) :
    (table.opened name parent).headers =
      table.headers ++ [(name, some parent)] := by
  simp [headers, opened]

theorem headers_declared (id : ScopeId) (name : String) (type : Ty)
    (line : Nat) (isFunction : Bool) :
    (table.declared id name type line isFunction).headers =
      table.headers := by
  unfold declared
  split
  · rfl
  · next scope stored =>
      obtain ⟨inside, rfl⟩ := Array.getElem?_eq_some_iff.mp stored
      have within : id.index < table.headers.length := by
        simpa using inside
      have same : (table.scopes[id.index].name,
          table.scopes[id.index].parent) = table.headers[id.index] := by
        simp [headers]
      simp only [headers, Array.toList_setIfInBounds, List.map_set, Scope.link]
      rw [same, ← headers, List.set_getElem_self]

end SymbolTable

/-- The names of scopes, from the nodes that open them. A function names its
scope; blocks have no name and are counted. -/
def scopeNames : Nat → List Site → List String
  | _, [] => []
  | count, site :: sites =>
      match site.node.name? with
      | some name => name :: scopeNames count sites
      | none => toString count :: scopeNames (count + 1) sites

def unnamed (sites : List Site) : Nat :=
  sites.countP fun site => site.node.name?.isNone

theorem scopeNames_append (count : Nat) (left right : List Site) :
    scopeNames count (left ++ right) =
      scopeNames count left ++ scopeNames (count + unnamed left) right := by
  induction left generalizing count with
  | nil => rfl
  | cons site sites induction =>
      cases named : site.node.name? with
      | some name => simp [scopeNames, unnamed, named, induction]
      | none =>
          simp [scopeNames, unnamed, named, induction, Nat.add_assoc,
            Nat.add_comm 1]

namespace Declaring

/-- A scope that a visit opens: its name, the scope around it, and the node that
it is opened for. -/
structure Opening where
  name : String
  parent : ScopeId
  route : Route
  site : Site

def opened? : Declaring × Route × Visit → Option Opening
  | (state, route, .enter site) =>
      if site.node.kind.isFunction ||
          site.node.kind.isBlock && state.awaiting.isNone then
        some ⟨site.node.name?.getD (toString state.blockCount), state.current,
          route, site⟩
      else none
  | _ => none

def openings (past : List (Declaring × Route × Visit)) : List Opening :=
  past.filterMap opened?

variable {state : Declaring} {site : Site} {route : Route}
  {past : List (Declaring × Route × Visit)}

theorem opened?_function {name : String} {spec : Option TypeSpec}
    (kind : site.node.kind = .declaration (.function name spec)) :
    opened? (state, route, .enter site) =
      some ⟨name, state.current, route, site⟩ := by
  simp [opened?, kind, NodeKind.isFunction, Node.name?, NodeKind.name?]

theorem name?_block (block : site.node.kind.isBlock = true) :
    site.node.name? = none := by
  unfold NodeKind.isBlock at block
  split at block
  · next found => simp [Node.name?, NodeKind.name?, found]
  · cases block

theorem opened?_block (block : site.node.kind.isBlock = true)
    (idle : state.awaiting = none) :
    opened? (state, route, .enter site) =
      some ⟨toString state.blockCount, state.current, route, site⟩ := by
  simp [opened?, block, idle, name?_block block]

theorem opened?_body (block : site.node.kind.isBlock = true)
    {scope : ScopeId} (waiting : state.awaiting = some scope) :
    opened? (state, route, .enter site) = none := by
  simp [opened?, NodeKind.isFunction_of_isBlock block, waiting]

theorem opened?_other (function : site.node.kind.isFunction = false)
    (block : site.node.kind.isBlock = false) :
    opened? (state, route, .enter site) = none := by
  simp [opened?, function, block]

theorem framed_headers (headers : List (String × Option ScopeId)) :
    Framed fun table => table.headers = headers where
  declared name type line isFunction _ held :=
    (SymbolTable.headers_declared _ name type line isFunction).trans held
  used _ _ held := held
  signed _ _ held := held

theorem awaiting_entered (sound : state.Sound)
    (function : site.node.kind.isFunction = true) :
    (state.entered site).awaiting = some ⟨state.table.scopes.size⟩ := by
  obtain ⟨name, type, same⟩ := entered_function state function
  have headers := (framed_headers state.table.headers).withFunction sound
    site.id name type site.node.line rfl
  have size := congrArg List.length headers
  rw [SymbolTable.length_headers, SymbolTable.length_headers] at size
  rw [same, inFunction, size]

theorem blockCount_withFunction (id : NodeId) (name : String) (type : Ty)
    (line : Nat) :
    (state.withFunction id name type line).blockCount = state.blockCount := by
  unfold withFunction
  split <;> rfl

/-- The scopes of the state are the outermost one and those that were opened
before, and blocks have been counted. -/
structure Ledger (state : Declaring)
    (past : List (Declaring × Route × Visit)) : Prop where
  headers : state.table.headers = (SymbolTable.globalName, none) ::
    (openings past).map fun opening => (opening.name, some opening.parent)
  names : (openings past).map Opening.name =
    scopeNames 0 ((openings past).map Opening.site)
  count : state.blockCount = unnamed ((openings past).map Opening.site)

theorem Ledger.size (ledger : Ledger state past) :
    state.table.scopes.size = (openings past).length + 1 := by
  rw [← SymbolTable.length_headers, ledger.headers]
  simp

theorem Ledger.same (ledger : Ledger state past) {visit : Visit}
    {after : Declaring} (none : opened? (state, route, visit) = none)
    (headers : after.table.headers = state.table.headers)
    (count : after.blockCount = state.blockCount) :
    Ledger after (past ++ [(state, route, visit)]) := by
  have same : openings (past ++ [(state, route, visit)]) = openings past :=
    filterMap_concat_none none
  refine ⟨?_, ?_, ?_⟩
  · rw [same, headers, ledger.headers]
  · rw [same, ledger.names]
  · rw [same, count, ledger.count]

theorem Ledger.more (ledger : Ledger state past) {visit : Visit}
    {after : Declaring} {opening : Opening}
    (opened : opened? (state, route, visit) = some opening)
    (name : opening.name =
      opening.site.node.name?.getD (toString state.blockCount))
    (headers : after.table.headers = state.table.headers ++
      [(opening.name, some opening.parent)])
    (count : after.blockCount = state.blockCount + unnamed [opening.site]) :
    Ledger after (past ++ [(state, route, visit)]) := by
  have grown : openings (past ++ [(state, route, visit)]) =
      openings past ++ [opening] := by
    rw [openings, filterMap_concat, opened]
    rfl
  have own : scopeNames state.blockCount [opening.site] = [opening.name] := by
    rw [name]
    cases named : opening.site.node.name? <;> simp [scopeNames, named]
  refine ⟨?_, ?_, ?_⟩
  · rw [grown, headers, ledger.headers]
    simp
  · -- The new name is counted on from the blocks that were opened before.
    rw [grown, List.map_append, List.map_append, scopeNames_append,
      Nat.zero_add, ← ledger.count, ledger.names]
    exact congrArg _ own.symm
  · rw [grown, count, ledger.count]
    simp [unnamed]

theorem Ledger.entered (ledger : Ledger state past) (sound : state.Sound)
    (route : Route) (site : Site) :
    Ledger (state.entered site) (past ++ [(state, route, .enter site)]) := by
  cases function : site.node.kind.isFunction with
  | true =>
      obtain ⟨name, spec, kind⟩ := kind_of_isFunction function
      have named : site.node.name? = some name := by
        simp [Node.name?, NodeKind.name?, kind]
      have same : state.entered site = state.inFunction site.id name
          (Ty.ofReturnSpec spec) site.node.line := by
        simp [Declaring.entered, kind]
      rw [same]
      apply ledger.more (opened?_function kind)
      · simp [named]
      · have before := (framed_headers state.table.headers).withFunction sound
          site.id name (Ty.ofReturnSpec spec) site.node.line rfl
        simp [inFunction, enclosed, before, current_withFunction]
      · simp [inFunction, enclosed, blockCount_withFunction, unnamed, named]
  | false =>
      cases block : site.node.kind.isBlock with
      | true =>
          rw [entered_block block]
          have named := name?_block block
          cases waiting : state.awaiting with
          | some scope =>
              apply ledger.same (opened?_body block waiting)
              · simp [withBlock, waiting]
              · simp [withBlock, waiting]
          | none =>
              apply ledger.more (opened?_block block waiting)
              · simp [named]
              · simp [withBlock, waiting, enclosed]
              · simp [withBlock, waiting, enclosed, unnamed, named]
      | false =>
          apply ledger.same (opened?_other function block)
          · exact (framed_headers _).entered sound function block rfl
          · exact (stays_entered state function block).blockCount

theorem Ledger.left (ledger : Ledger state past) (route : Route)
    (site : Site) :
    Ledger (state.left site) (past ++ [(state, route, .leave site)]) := by
  apply ledger.same rfl
  · rw [table_left]
  · unfold Declaring.left withoutFunction
    split
    · rfl
    · split <;> rfl
    · rfl

theorem ledger_origin (builtins : Bool) : Ledger (origin builtins) [] where
  headers := (framed_headers _).origin builtins rfl
  names := rfl
  count := by
    cases builtins with
    | false => rfl
    | true =>
        simp only [origin, if_true, withRuntime, declaredIn, withSigned]
        split <;> rfl

theorem ledger_of_visits (builtins : Bool) {stops : List (Route × Visit)}
    {final : Declaring}
    (done : (stops.map Prod.snd).foldlM step (origin builtins) = .ok final) :
    Ledger final (trace step (origin builtins) stops) := by
  apply (visits_induction (grows_origin builtins).sound done
    (motive := Ledger) (ledger_origin builtins) ?_ ?_).2
  · exact fun _ sound ledger => ledger.entered sound _ _
  · exact fun _ _ ledger => ledger.left _ _

theorem blocks_of_unblocked (state : Declaring)
    (unblocked : site.node.kind.isBlock = false) :
    (state.entered site).facts.blocks = state.facts.blocks := by
  have inUse (id : NodeId) (name : String) (line : Nat) :
      (state.withUse id name line).facts.blocks = state.facts.blocks := by
    unfold withUse
    split <;> rfl
  unfold entered
  split
  · simp only [inFunction, enclosed, withFunction]
    split <;> rfl
  · rw [facts_withLocal]
  · rw [facts_withLocal]
  · rw [facts_withParameter]
  · next found => simp [found, NodeKind.isBlock] at unblocked
  · exact inUse _ _ _
  · exact inUse _ _ _
  · exact inUse _ _ _
  · rfl

end Declaring

end CMinusAnalysis
