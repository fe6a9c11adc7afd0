import CMinusAnalysis.Facts.Basic
import CMinusAnalysis.Symbol.Table
import CMinusAnalysis.Tree.Walk

namespace CMinusAnalysis

/-! The declaring pass walks a program once. It opens a scope for every function
and block, declares names in the scope that is open at that point, and resolves
every use of a name against what has been declared so far. -/

structure Declaring where
  table : SymbolTable := {}
  facts : Facts := {}
  diagnostics : Diagnostics := {}
  current : ScopeId := ScopeId.global
  /-- The scope of a function whose body has not been met yet. The next block
  opens this scope and no new one. -/
  awaiting : Option ScopeId := none
  /-- The accepted function whose parameters are being declared. -/
  signature : Option String := none
  /-- Blocks that are not bodies are named by counting them. -/
  blockCount : Nat := 0

namespace Declaring

def report (state : Declaring) (kind : DiagnosticKind) (line : Nat)
    (name : String) : Run Declaring := do
  let diagnostic : Diagnostic := ⟨kind, line, some name⟩
  Run.record (.reported diagnostic)
  return { state with diagnostics := state.diagnostics.add diagnostic }

def openScope (state : Declaring) (name : String) :
    Run (ScopeId × Declaring) := do
  let (scope, table) ← state.table.createScope name (some state.current)
  return (scope, { state with table, current := scope })

def closeScope (state : Declaring) : Run Declaring := do
  let scope ← state.table.scope state.current
  return { state with current := scope.parent.getD ScopeId.global }

def declareIn (state : Declaring) (scope : ScopeId) (name : String)
    (type : Ty) (line : Nat) (isFunction : Bool) :
    Run (SymbolId × Declaring) := do
  let (location, table) ← state.table.allocate scope
  let (symbol, table) ← table.insert scope name type line location isFunction
  return (symbol, { state with table })

/-- Declares a variable or parameter in the current scope, and says whether the
name was free there. -/
def declareLocal (state : Declaring) (name : String) (type : Ty) (line : Nat)
    (redeclared : DiagnosticKind) : Run (Bool × Declaring) := do
  match ← state.table.lookupLocal state.current name with
  | some _ =>
      let state ← state.report redeclared line name
      return (false, state)
  | none =>
      let (_, state) ← state.declareIn state.current name type line false
      return (true, state)

def addParameter (state : Declaring) (function : String) (type : Ty) :
    Run Declaring :=
  match state.table.addParameter function type with
  | .ok table => return { state with table }
  | .error failure => do
      Run.record (.signatureRefused failure)
      return state

/-- Why a function may not be declared here, if there is a reason. -/
def functionObjection? (state : Declaring) (name : String) :
    Except Fault (Option DiagnosticKind) := do
  match ← state.table.lookupLocal ScopeId.global name with
  | some _ => return some .functionRedeclared
  | none =>
      return if state.current ≠ ScopeId.global then some .functionNotGlobal
        else none

/-- Declares a function, or reports it. Either way it gets a scope of its own,
which its body will open. -/
def enterFunction (state : Declaring) (id : NodeId) (name : String)
    (type : Ty) (line : Nat) : Run Declaring := do
  let state ← match ← state.functionObjection? name with
    | some kind => do
        let state ← state.report kind line name
        pure { state with signature := none }
    | none => do
        let (symbol, state) ←
          state.declareIn ScopeId.global name type line true
        pure { state with
          facts := state.facts.setFunction id symbol
          signature := some name }
  let (scope, state) ← state.openScope name
  return { state with awaiting := some scope }

def declareParameter (state : Declaring) (parameter : Parameter)
    (line : Nat) : Run Declaring := do
  if parameter.isVoidMarker then
    return state
  match parameter.name with
  | none => return state
  | some name =>
      let (isNew, state) ←
        state.declareLocal name parameter.type line .parameterRedeclared
      match isNew, state.signature with
      | true, some function => state.addParameter function parameter.type
      | _, _ => return state

def enterBlock (state : Declaring) (id : NodeId) : Run Declaring := do
  match state.awaiting with
  | some scope =>
      return { state with
        awaiting := none
        facts := state.facts.setBlock id scope }
  | none =>
      let (scope, state) ← state.openScope (toString state.blockCount)
      return { state with
        blockCount := state.blockCount + 1
        facts := state.facts.setBlock id scope }

def resolveUse (state : Declaring) (id : NodeId) (name : String)
    (line : Nat) : Run Declaring := do
  match ← state.table.lookup state.current name with
  | some symbol =>
      let table ← state.table.addReference symbol line
      return { state with table }
  | none =>
      let state ← state.report .undeclared line name
      return { state with facts := state.facts.setUnresolved id }

def enter (state : Declaring) (site : Site) : Run Declaring :=
  let line := site.node.line
  match site.node.kind with
  | .declaration (.function name spec) =>
      state.enterFunction site.id name (Ty.ofReturnSpec spec) line
  | .declaration (.variable name _) =>
      Prod.snd <$> state.declareLocal name .integer line .variableRedeclared
  | .declaration (.arrayVariable name _ _) =>
      Prod.snd <$> state.declareLocal name .integerArray line .arrayRedeclared
  | .parameter parameter => state.declareParameter parameter line
  | .statement .compound => state.enterBlock site.id
  | .expression (.identifier name)
  | .expression (.arrayIdentifier name)
  | .expression (.call name) => state.resolveUse site.id name line
  | _ => pure state

/-- A function that is left while its scope still waits for a body had none, so
its scope is closed here. -/
def leaveFunction (state : Declaring) : Run Declaring := do
  let state ← match state.awaiting with
    | some _ => ({ state with awaiting := none } : Declaring).closeScope
    | none => pure state
  return { state with signature := none }

def leave (state : Declaring) (site : Site) : Run Declaring :=
  match site.node.kind with
  | .statement .compound => state.closeScope
  | .declaration (.function _ _) => state.leaveFunction
  | _ => pure state

def visit (state : Declaring) : Visit → Run Declaring
  | .enter site => state.enter site
  | .leave site => state.leave site
  | .missing fault => Run.fail fault

def declareRuntime (state : Declaring) : Run Declaring := do
  let (_, state) ← state.declareIn ScopeId.global "output" .void 0 true
  let state ← state.addParameter "output" .integer
  let (_, state) ← state.declareIn ScopeId.global "input" .integer 0 true
  return state

def start (builtins : Bool) : Run Declaring := do
  let (global, table) ←
    SymbolTable.createScope {} SymbolTable.globalName none
  let state : Declaring := { table, current := global }
  if builtins then state.declareRuntime else return state

def run (builtins : Bool) (tree : Tree) : Run Declaring := do
  let state ← start builtins
  Run.record (.declaring tree.size)
  tree.walk visit tree.root state

end Declaring

end CMinusAnalysis
