import CMinusAnalysis.Facts.Basic
import CMinusAnalysis.Symbol.Table
import CMinusAnalysis.Tree.Walk

namespace CMinusAnalysis

/-! The checking pass walks a program once more, over a finished symbol table.
It gives types to expressions, declarations and parameters, and checks that the
types fit together. A type that is not known fits everywhere. -/

structure Checking where
  facts : Facts := {}
  diagnostics : Diagnostics := {}
  current : ScopeId := ScopeId.global
  /-- The innermost function around the walk, if its symbol is known. -/
  function : Option SymbolId := none
  /-- What `function` was outside each function that is still open. -/
  outer : List (Option SymbolId) := []

namespace Checking

variable (tree : Tree) (table : SymbolTable)

def report (state : Checking) (diagnostic : Diagnostic) : Run Checking := do
  Run.record (.reported diagnostic)
  return { state with diagnostics := state.diagnostics.add diagnostic }

def reportAny (state : Checking) : Option Diagnostic → Run Checking
  | some diagnostic => state.report diagnostic
  | none => pure state

def lookupType (state : Checking) (name : String) :
    Except Fault (Option Ty) := do
  match ← table.lookup state.current name with
  | some id =>
      let symbol ← table.symbol id
      return some symbol.type
  | none => return none

/-- The type that a node has as an operand. An element of an array is an
integer and an array without index is the array, whatever the name stands
for. -/
def siteType (state : Checking) (site : Site) : Except Fault (Option Ty) :=
  match site.node.kind with
  | .expression (.identifier name) =>
      if state.facts.unresolved.contains site.id then .ok none
      else state.lookupType table name
  | .expression (.arrayIdentifier _) =>
      .ok (some (if site.node.first.isSome then .integer else .integerArray))
  | _ => .ok (state.facts.types.get? site.id)

def nodeType (state : Checking) (id : NodeId) :
    Except Fault (Option Ty) := do
  let node ← tree.node id
  state.siteType table ⟨id, node⟩

def operandType (state : Checking) :
    Option NodeId → Except Fault (Option Ty)
  | some id => state.nodeType tree table id
  | none => .ok none

def binaryObjection? (op : BinaryOp) :
    Option Ty → Option Ty → Option DiagnosticKind
  | some .void, _ | _, some .void => some (.voidOperand op)
  | some left, some right =>
      if left ≠ right then some (.operandTypeMismatch op left right) else none
  | _, _ => none

def assignmentObjection? : Option Ty → Option Ty → Option DiagnosticKind
  | some .void, _ | _, some .void => some .voidAssignment
  | some target, some value =>
      if target ≠ value then some (.assignmentTypeMismatch target value)
      else none
  | _, _ => none

def argumentObjection? (position : Nat) (expected : Ty) :
    Option Ty → Option DiagnosticKind
  | some found =>
      if found ≠ expected then
        some (.argumentTypeMismatch position expected found)
      else none
  | none => none

def countObjection? (expected found : Nat) : Option DiagnosticKind :=
  if found ≠ expected then some (.argumentCountMismatch expected found)
  else none

def returnObjection? (expected : Ty) (hasValue : Bool) (found : Option Ty) :
    Option DiagnosticKind :=
  match expected, hasValue with
  | .void, true => some .returnValueInVoid
  | .void, false => none
  | _, false => some .missingReturnValue
  | _, true =>
      match found with
      | some found =>
          if found ≠ expected then some (.returnTypeMismatch expected found)
          else none
      | none => none

def variableObjection? : Option TypeSpec → Option DiagnosticKind
  | none => some .missingTypeSpecifier
  | some .void => some .voidVariable
  | some .int => none

def checkName (state : Checking) (id : NodeId) (name : String)
    (line : Nat) : Run (Option Ty × Checking) := do
  if state.facts.unresolved.contains id then
    return (none, state)
  match ← state.lookupType table name with
  | some type => return (some type, state)
  | none =>
      let state ← state.report ⟨.nameLost, line, some name⟩
      return (none, state)

def checkBinary (state : Checking) (site : Site) (op : BinaryOp) :
    Run Checking := do
  let left ← state.operandType tree table site.node.first
  let right ← state.operandType tree table site.node.second
  state.reportAny ((binaryObjection? op left right).map fun kind =>
    ⟨kind, site.node.line, none⟩)

def checkAssignment (state : Checking) (site : Site) :
    Run (Option Ty × Checking) := do
  let target ← state.operandType tree table site.node.first
  let value ← state.operandType tree table site.node.second
  let state ← state.reportAny
    ((assignmentObjection? target value).map fun kind =>
      ⟨kind, site.node.line, none⟩)
  return (target, state)

def checkArguments (state : Checking) (name : String) (line : Nat) :
    Nat → List NodeId → List Ty → Run Checking
  | position, argument :: arguments, expected :: parameters => do
      let found ← state.nodeType tree table argument
      let state ← state.reportAny
        ((argumentObjection? position expected found).map fun kind =>
          ⟨kind, line, some name⟩)
      state.checkArguments name line (position + 1) arguments parameters
  | _, _, _ => pure state

def checkCall (state : Checking) (site : Site) (name : String) :
    Run (Option Ty × Checking) := do
  let line := site.node.line
  if state.facts.unresolved.contains site.id then
    return (none, state)
  match ← table.lookupLocal ScopeId.global name with
  | none =>
      let state ← state.report ⟨.functionNotDeclared, line, some name⟩
      return (none, state)
  | some id =>
      let function ← table.symbol id
      if function.isFunction then
        let arguments ← tree.siblings site.node.first
        let state ← state.checkArguments tree table name line 1 arguments
          function.parameters
        let state ← state.reportAny
          ((countObjection? function.parameters.length
            arguments.length).map fun kind => ⟨kind, line, some name⟩)
        return (some function.type, state)
      else
        let state ← state.report ⟨.notAFunction, line, some name⟩
        return (none, state)

def checkCondition (state : Checking) (site : Site) (statement : String) :
    Run Checking := do
  let line := site.node.line
  match site.node.first with
  | none => state.report ⟨.missingCondition statement, line, none⟩
  | some id =>
      let condition ← state.nodeType tree table id
      if condition = some .void then
        state.report ⟨.voidCondition statement, line, none⟩
      else
        return state

def checkReturn (state : Checking) (site : Site) : Run Checking := do
  match state.function with
  | none => return state
  | some id =>
      let function ← table.symbol id
      let hasValue := site.node.first.isSome
      let found ←
        if function.type = .void then pure none
        else state.operandType tree table site.node.first
      state.reportAny
        ((returnObjection? function.type hasValue found).map fun kind =>
          ⟨kind, site.node.line, some function.name⟩)

def checkWrite (state : Checking) (site : Site) : Run Checking := do
  let value ← state.operandType tree table site.node.first
  if value = some .void then
    state.report ⟨.voidWrite, site.node.line, none⟩
  else
    return state

def checkVariable (state : Checking) (spec : Option TypeSpec)
    (name : String) (line : Nat) : Run Checking :=
  state.reportAny ((variableObjection? spec).map fun kind =>
    ⟨kind, line, some name⟩)

/-- The symbol of a function declaration: its own if it was accepted, otherwise
that of the global function of the same name. -/
def functionSymbol? (state : Checking) (id : NodeId) (name : String) :
    Option SymbolId :=
  (state.facts.functions.get? id).orElse fun _ => table.globalFunction? name

def enter (state : Checking) (site : Site) : Run Checking :=
  match site.node.kind with
  | .declaration (.function name _) =>
      return { state with
        function := state.functionSymbol? table site.id name
        outer := state.function :: state.outer }
  | .statement .compound =>
      match state.facts.blocks.get? site.id with
      | some id => do
          let scope ← table.scope id
          Run.record (.blockEntered scope.name)
          return { state with current := id }
      | none => state.report ⟨.blockScopeLost, site.node.line, none⟩
  | _ => pure state

def leaveBlock (state : Checking) (id : NodeId) : Run Checking := do
  match state.facts.blocks.get? id with
  | some block =>
      let scope ← table.scope block
      return { state with current := scope.parent.getD ScopeId.global }
  | none => return state

def leaveStatement (state : Checking) (site : Site) :
    Statement → Run Checking
  | .compound => state.leaveBlock table site.id
  | .conditional | .alternative => state.checkCondition tree table site "if"
  | .loop => state.checkCondition tree table site "while"
  | .ret => state.checkReturn tree table site
  | .assign => Prod.snd <$> state.checkAssignment tree table site
  | .write => state.checkWrite tree table site

def leaveExpression (state : Checking) (site : Site) :
    Expression → Run (Option Ty × Checking)
  | .constant _ => return (some .integer, state)
  | .identifier name => state.checkName table site.id name site.node.line
  | .arrayIdentifier name => do
      let (_, state) ← state.checkName table site.id name site.node.line
      let type ← state.siteType table site
      return (type, state)
  | .binary op => do
      let state ← state.checkBinary tree table site op
      return (some .integer, state)
  | .assign => state.checkAssignment tree table site
  | .call name => state.checkCall tree table site name

def leaveDeclaration (state : Checking) (site : Site) :
    Declaration → Run (Option Ty × Checking)
  | .variable name spec => do
      let state ← state.checkVariable spec name site.node.line
      return (some .integer, state)
  | .arrayVariable name spec _ => do
      let state ← state.checkVariable spec name site.node.line
      return (some .integerArray, state)
  | .function _ spec =>
      return (some (Ty.ofReturnSpec spec),
        { state with
          function := state.outer.head?.join
          outer := state.outer.tail })

def leaveTyped (state : Checking) (site : Site) :
    Run (Option Ty × Checking) :=
  match site.node.kind with
  | .expression expression => state.leaveExpression tree table site expression
  | .statement statement => do
      let state ← state.leaveStatement tree table site statement
      return (none, state)
  | .declaration declaration => state.leaveDeclaration site declaration
  | .parameter parameter =>
      return (parameter.name.map fun _ => parameter.type, state)

def leave (state : Checking) (site : Site) : Run Checking := do
  let (type, state) ← state.leaveTyped tree table site
  match type with
  | some type =>
      return { state with facts := state.facts.setType site.id type }
  | none => return state

def visit (state : Checking) : Visit → Run Checking
  | .enter site => state.enter table site
  | .leave site => state.leave tree table site
  | .missing fault => Run.fail fault

/-- Checks a tree against a table. Without any scope there is nothing to check
against. -/
def run (facts : Facts) (diagnostics : Diagnostics) :
    Run Checking := do
  let state : Checking := { facts, diagnostics }
  match table.global? with
  | none =>
      Run.record .nothingToCheck
      return state
  | some global =>
      Run.record (.checking tree.size)
      tree.walk (visit tree table) tree.root { state with current := global }

end Checking

end CMinusAnalysis
