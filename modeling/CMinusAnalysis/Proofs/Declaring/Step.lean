import CMinusAnalysis.Analysis.Declaring
import CMinusAnalysis.Proofs.Facts.Records
import CMinusAnalysis.Proofs.Symbol.Growth

namespace CMinusAnalysis

/-! What one visit of the declaring pass does. From a sound state no visit of a
node fails, and each has its effect in closed form: it opens a scope, declares
a name, objects to one, marks a use or leaves a scope. -/

namespace Declaring

/-- The table can be searched, and every handle into it that the state holds
is good. -/
structure Sound (state : Declaring) : Prop where
  coherent : state.table.Coherent
  current : state.table.Has state.current
  awaiting : ∀ scope ∈ state.awaiting, state.table.Has scope
  blocks : ∀ {id : NodeId}, ∀ scope ∈ state.facts.blocks.get? id,
    state.table.Has scope
  functions : ∀ {id : NodeId}, ∀ function ∈ state.facts.functions.get? id,
    function.index < state.table.symbols.size

variable {state : Declaring}

theorem Sound.global (sound : state.Sound) :
    state.table.Has ScopeId.global :=
  Nat.lt_of_le_of_lt (Nat.zero_le _) sound.current

def reported (state : Declaring) (kind : DiagnosticKind) (line : Nat)
    (name : String) : Declaring :=
  { state with diagnostics := state.diagnostics.add ⟨kind, line, some name⟩ }

def declaredIn (state : Declaring) (scope : ScopeId) (name : String)
    (type : Ty) (line : Nat) (isFunction : Bool) : Declaring :=
  { state with table := state.table.declared scope name type line isFunction }

def enclosed (state : Declaring) (name : String) : Declaring :=
  { state with
    table := state.table.opened name state.current
    current := ⟨state.table.scopes.size⟩ }

def outside (state : Declaring) : Declaring :=
  { state with
    current := (state.table.parent? state.current).getD ScopeId.global }

theorem report_result (kind : DiagnosticKind) (line : Nat) (name : String) :
    (state.report kind line name).result =
      .ok (state.reported kind line name) := by
  simp [report, reported]

theorem openScope_result (name : String) :
    (state.openScope name).result =
      .ok (⟨state.table.scopes.size⟩, state.enclosed name) := by
  simp [openScope, enclosed, SymbolTable.createScope_result]

theorem closeScope_result (sound : state.Sound) :
    state.closeScope.result = .ok state.outside := by
  obtain ⟨scope, stored⟩ := SymbolTable.exists_scope sound.current
  have parent : state.table.parent? state.current = scope.parent := by
    simp [SymbolTable.parent?, stored]
  simp [closeScope, outside, SymbolTable.scope_eq_ok stored, parent]

theorem declareIn_result {scope : ScopeId} {name : String}
    (has : state.table.Has scope) (free : state.table.find? scope name = none)
    (type : Ty) (line : Nat) (isFunction : Bool) :
    (state.declareIn scope name type line isFunction).result =
      .ok (⟨state.table.symbols.size⟩,
        state.declaredIn scope name type line isFunction) := by
  obtain ⟨found, stored⟩ := SymbolTable.exists_scope has
  have inside := (Array.getElem?_eq_some_iff.mp stored).1
  let later : Scope := { found with nextLocation := found.nextLocation + 1 }
  let table : SymbolTable :=
    ⟨state.table.scopes.setIfInBounds scope.index later, state.table.symbols⟩
  have advanced : table.scopes[scope.index]? = some later := by
    simp [table, inside]
  have present : table.Has scope := by
    simpa [table, SymbolTable.Has] using inside
  have still : table.find? scope name = none := by
    simp only [SymbolTable.find?, stored, Option.bind_some] at free
    simp only [SymbolTable.find?, advanced, Option.bind_some]
    exact free
  have allocated : state.table.allocate scope =
      .ok (found.nextLocation, table) := by
    simp [SymbolTable.allocate, SymbolTable.scope_eq_ok stored, table, later]
  simp only [declareIn, SymbolTable.insert, allocated, Run.result_bind,
    Run.result_monadLift, Run.result_record, ok_bind,
    SymbolTable.lookupLocal_eq present, still,
    SymbolTable.scope_eq_ok advanced, Run.result_pure]
  simp [SymbolTable.append, declaredIn, SymbolTable.declared, stored, table,
    later]

/-- The state after a variable or parameter that may be new in its scope. -/
def withLocal (state : Declaring) (name : String) (type : Ty) (line : Nat)
    (redeclared : DiagnosticKind) : Declaring :=
  if (state.table.find? state.current name).isSome then
    state.reported redeclared line name
  else
    state.declaredIn state.current name type line false

theorem declareLocal_result (sound : state.Sound) (name : String) (type : Ty)
    (line : Nat) (redeclared : DiagnosticKind) :
    (state.declareLocal name type line redeclared).result =
      .ok ((state.table.find? state.current name).isNone,
        state.withLocal name type line redeclared) := by
  simp only [declareLocal, Run.result_bind, Run.result_monadLift,
    SymbolTable.lookupLocal_eq sound.current, ok_bind, withLocal]
  cases found : state.table.find? state.current name with
  | some symbol => simp [report_result]
  | none => simp [declareIn_result sound.current found]

def withSigned (state : Declaring) (function : String) (type : Ty) :
    Declaring :=
  match state.table.globalFunction? function with
  | some found =>
      { state with table := state.table.modifySymbol found fun symbol =>
          symbol.addParameter type }
  | none => state

def withSignature (state : Declaring) (type : Ty) : Declaring :=
  match state.signature with
  | some function => state.withSigned function type
  | none => state

def withParameter (state : Declaring) (parameter : Parameter) (line : Nat) :
    Declaring :=
  match parameter.name with
  | none => state
  | some name =>
      if (state.table.find? state.current name).isSome then
        state.reported .parameterRedeclared line name
      else
        (state.declaredIn state.current name parameter.type line
          false).withSignature parameter.type

theorem addParameter_result (function : String) (type : Ty) :
    (state.addParameter function type).result =
      .ok (state.withSigned function type) := by
  simp only [addParameter, withSigned, SymbolTable.addParameter]
  cases state.table.globalFunction? function <;> simp

theorem declareParameter_result (sound : state.Sound) (parameter : Parameter)
    (line : Nat) :
    (state.declareParameter parameter line).result =
      .ok (state.withParameter parameter line) := by
  cases named : parameter.name with
  | none => simp [declareParameter, withParameter, named]
  | some name =>
      have unmarked : parameter.isVoidMarker = false := by
        simp [Parameter.isVoidMarker, named]
      simp only [declareParameter, unmarked, named, withParameter,
        Bool.false_eq_true, if_false, Run.result_bind,
        declareLocal_result sound, ok_bind, withLocal]
      cases found : state.table.find? state.current name with
      | some symbol => simp
      | none =>
          cases opened : state.signature with
          | none => simp [withSignature, declaredIn, opened]
          | some function =>
              simp [withSignature, addParameter_result, declaredIn, opened]

def objection? (state : Declaring) (name : String) : Option DiagnosticKind :=
  if (state.table.find? ScopeId.global name).isSome then
    some .functionRedeclared
  else if state.current ≠ ScopeId.global then some .functionNotGlobal
  else none

def withFunction (state : Declaring) (id : NodeId) (name : String) (type : Ty)
    (line : Nat) : Declaring :=
  match state.objection? name with
  | some kind => { state.reported kind line name with signature := none }
  | none =>
      { state.declaredIn ScopeId.global name type line true with
        facts := state.facts.setFunction id ⟨state.table.symbols.size⟩
        signature := some name }

def inFunction (state : Declaring) (id : NodeId) (name : String) (type : Ty)
    (line : Nat) : Declaring :=
  { (state.withFunction id name type line).enclosed name with
    awaiting := some
      ⟨(state.withFunction id name type line).table.scopes.size⟩ }

theorem functionObjection?_eq (sound : state.Sound) (name : String) :
    state.functionObjection? name = .ok (state.objection? name) := by
  simp only [functionObjection?, SymbolTable.lookupLocal_eq sound.global,
    ok_bind, objection?]
  cases state.table.find? ScopeId.global name <;> simp

theorem enterFunction_result (sound : state.Sound) (id : NodeId)
    (name : String) (type : Ty) (line : Nat) :
    (state.enterFunction id name type line).result =
      .ok (state.inFunction id name type line) := by
  simp only [enterFunction, inFunction, Run.result_bind, Run.result_monadLift,
    functionObjection?_eq sound, ok_bind]
  cases objected : state.objection? name with
  | some kind => simp [report_result, openScope_result, withFunction, objected]
  | none =>
      have free : state.table.find? ScopeId.global name = none := by
        rw [objection?] at objected
        split at objected
        · cases objected
        · next free => simpa using free
      simp [declareIn_result sound.global free, openScope_result, withFunction,
        objected, declaredIn]

def withUse (state : Declaring) (id : NodeId) (name : String) (line : Nat) :
    Declaring :=
  match state.table.resolve state.current name with
  | some found =>
      { state with table := state.table.modifySymbol found fun symbol =>
          symbol.addLine line }
  | none =>
      { state.reported .undeclared line name with
        facts := state.facts.setUnresolved id }

theorem resolveUse_result (sound : state.Sound) (id : NodeId) (name : String)
    (line : Nat) :
    (state.resolveUse id name line).result =
      .ok (state.withUse id name line) := by
  simp only [resolveUse, Run.result_bind, Run.result_monadLift,
    SymbolTable.lookup_eq sound.coherent sound.current, ok_bind, withUse]
  cases found : state.table.resolve state.current name with
  | none => simp [report_result, reported]
  | some used =>
      obtain ⟨symbol, stored⟩ := SymbolTable.exists_of_resolve found
      simp [SymbolTable.addReference, SymbolTable.symbol_eq_ok stored]

def withBlock (state : Declaring) (id : NodeId) : Declaring :=
  match state.awaiting with
  | some scope =>
      { state with
        awaiting := none
        facts := state.facts.setBlock id scope }
  | none =>
      { state.enclosed (toString state.blockCount) with
        blockCount := state.blockCount + 1
        facts := state.facts.setBlock id ⟨state.table.scopes.size⟩ }

theorem enterBlock_result (id : NodeId) :
    (state.enterBlock id).result = .ok (state.withBlock id) := by
  simp only [enterBlock, withBlock]
  cases state.awaiting <;> simp [openScope_result, enclosed]

def withoutFunction (state : Declaring) : Declaring :=
  match state.awaiting with
  | some _ => { state.outside with awaiting := none, signature := none }
  | none => { state with signature := none }

theorem leaveFunction_result (sound : state.Sound) :
    state.leaveFunction.result = .ok state.withoutFunction := by
  cases waiting : state.awaiting with
  | none => simp [leaveFunction, withoutFunction, waiting]
  | some scope =>
      have still : Sound { state with awaiting := none } :=
        { sound with awaiting := by simp }
      simp [leaveFunction, withoutFunction, waiting, closeScope_result still,
        outside]

def entered (state : Declaring) (site : Site) : Declaring :=
  let line := site.node.line
  match site.node.kind with
  | .declaration (.function name spec) =>
      state.inFunction site.id name (Ty.ofReturnSpec spec) line
  | .declaration (.variable name _) =>
      state.withLocal name .integer line .variableRedeclared
  | .declaration (.arrayVariable name _ _) =>
      state.withLocal name .integerArray line .arrayRedeclared
  | .parameter parameter => state.withParameter parameter line
  | .statement .compound => state.withBlock site.id
  | .expression (.identifier name)
  | .expression (.arrayIdentifier name)
  | .expression (.call name) => state.withUse site.id name line
  | _ => state

def left (state : Declaring) (site : Site) : Declaring :=
  match site.node.kind with
  | .statement .compound => state.outside
  | .declaration (.function _ _) => state.withoutFunction
  | _ => state

/-- The outcome of one visit. -/
def step (state : Declaring) (visit : Visit) : Except Fault Declaring :=
  (state.visit visit).result

theorem step_enter (sound : state.Sound) (site : Site) :
    state.step (.enter site) = .ok (state.entered site) := by
  rcases kind : site.node.kind with declaration | statement | expression |
    parameter
  · cases declaration <;>
      simp [step, visit, enter, entered, kind, declareLocal_result sound,
        enterFunction_result sound]
  · cases statement <;>
      simp [step, visit, enter, entered, kind, enterBlock_result]
  · cases expression <;>
      simp [step, visit, enter, entered, kind, resolveUse_result sound]
  · simp [step, visit, enter, entered, kind, declareParameter_result sound]

theorem step_leave (sound : state.Sound) (site : Site) :
    state.step (.leave site) = .ok (state.left site) := by
  rcases kind : site.node.kind with declaration | statement | expression |
    parameter
  · cases declaration <;>
      simp [step, visit, leave, left, kind, leaveFunction_result sound]
  · cases statement <;>
      simp [step, visit, leave, left, kind, closeScope_result sound]
  · simp [step, visit, leave, left, kind]
  · simp [step, visit, leave, left, kind]

def bare : Declaring where
  table := { scopes := #[{ name := SymbolTable.globalName, parent := none }] }
  facts := Facts.blank

def withRuntime : Declaring :=
  ((bare.declaredIn ScopeId.global "output" .void 0 true).withSigned "output"
    .integer).declaredIn ScopeId.global "input" .integer 0 true

def origin (builtins : Bool) : Declaring :=
  if builtins then withRuntime else bare

theorem find?_bare (id : ScopeId) (name : String) :
    bare.table.find? id name = none := by
  cases held : bare.table.scopes[id.index]? with
  | none => simp [SymbolTable.find?, held]
  | some scope =>
      obtain ⟨inside, rfl⟩ := Array.getElem?_eq_some_iff.mp held
      have first : id.index = 0 := by
        simpa [bare] using inside
      simp only [SymbolTable.find?, held, Option.bind_some]
      simp [bare, first, SymbolTable.chain_fresh]

theorem parent?_bare (id : ScopeId) : bare.table.parent? id = none := by
  cases held : bare.table.scopes[id.index]? with
  | none => simp [SymbolTable.parent?, held]
  | some scope =>
      obtain ⟨inside, rfl⟩ := Array.getElem?_eq_some_iff.mp held
      have first : id.index = 0 := by
        simpa [bare] using inside
      simp [SymbolTable.parent?, bare, first]

theorem sound_bare : bare.Sound where
  coherent :=
    { older := by simp [parent?_bare]
      enclosed := by
        intro id has inner
        have first : id.index = 0 := by
          simpa [SymbolTable.Has, bare] using has
        exact absurd (ScopeId.ext first) inner
      linked := by
        intro id scope name symbol held member
        obtain ⟨inside, rfl⟩ := Array.getElem?_eq_some_iff.mp held
        have first : id.index = 0 := by
          simpa [bare] using inside
        simp [bare, first, SymbolTable.chain_fresh] at member
      owned := by simp [bare] }
  current := by simp [SymbolTable.Has, bare, ScopeId.global]
  awaiting := by simp [bare]
  blocks := by simp [bare, Facts.blank]
  functions := by simp [bare, Facts.blank]

end Declaring

end CMinusAnalysis
