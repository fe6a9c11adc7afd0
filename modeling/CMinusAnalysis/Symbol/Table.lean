import CMinusAnalysis.Journal.Run
import CMinusAnalysis.Symbol.Bucket

namespace CMinusAnalysis

/-! The symbol table holds every scope and every symbol of one program. A scope
knows the scope that encloses it and keeps its symbols in buckets, each a chain
in order of insertion; a symbol knows the scope that owns it. -/

structure Symbol where
  name : String
  type : Ty
  location : Nat
  isFunction : Bool
  parameters : List Ty := []
  /-- The lines of its uses, latest first, and last the line of its
  declaration. -/
  latestLines : List Nat
  scope : ScopeId
  deriving DecidableEq, Repr

namespace Symbol

def kindLabel (symbol : Symbol) : String :=
  if symbol.isFunction then "Function" else symbol.type.name

/-- The line of declaration and after it the line of every use. -/
def lines (symbol : Symbol) : List Nat :=
  symbol.latestLines.reverse

def addLine (symbol : Symbol) (line : Nat) : Symbol :=
  { symbol with latestLines := line :: symbol.latestLines }

@[simp] theorem lines_addLine (symbol : Symbol) (line : Nat) :
    (symbol.addLine line).lines = symbol.lines ++ [line] :=
  List.reverse_cons

def addParameter (symbol : Symbol) (type : Ty) : Symbol :=
  { symbol with parameters := symbol.parameters ++ [type] }

end Symbol

structure Scope where
  name : String
  parent : Option ScopeId
  nextLocation : Nat := 0
  buckets : Vector (List SymbolId) bucketCount := Vector.replicate bucketCount []
  deriving Repr

namespace Scope

def symbols (scope : Scope) : List SymbolId :=
  scope.buckets.toList.flatten

def chain (scope : Scope) (name : String) : List SymbolId :=
  scope.buckets.get (bucketOf name)

def link (scope : Scope) (name : String) (id : SymbolId) : Scope :=
  { scope with
    buckets := scope.buckets.set (bucketOf name) (scope.chain name ++ [id])
      (bucketOf name).isLt }

end Scope

structure SymbolTable where
  scopes : Array Scope := #[]
  symbols : Array Symbol := #[]
  deriving Repr

namespace SymbolTable

def globalName : String := "global"

/-- The outermost scope, once there is one. -/
def global? (table : SymbolTable) : Option ScopeId :=
  if table.scopes.isEmpty then none else some ScopeId.global

def scope (table : SymbolTable) (id : ScopeId) : Except Fault Scope :=
  fetch table.scopes id.index

def symbol (table : SymbolTable) (id : SymbolId) : Except Fault Symbol :=
  fetch table.symbols id.index

/-- The first scope that was created with this name. -/
def findScope (table : SymbolTable) (name : String) : Option ScopeId :=
  (table.scopes.findIdx? fun scope => scope.name == name).map ScopeId.mk

def hasName (table : SymbolTable) (name : String) (id : SymbolId) : Bool :=
  table.symbols[id.index]?.any fun symbol => symbol.name == name

/-- The symbol of that name in the scope itself. Only the chain of the name's
bucket is searched. -/
def lookupLocal (table : SymbolTable) (id : ScopeId) (name : String) :
    Except Fault (Option SymbolId) := do
  let scope ← table.scope id
  return (scope.chain name).find? (table.hasName name)

def lookupWithin (table : SymbolTable) (name : String) :
    Nat → ScopeId → Except Fault (Option SymbolId)
  | 0, _ => .ok none
  | steps + 1, id => do
      match ← table.lookupLocal id name with
      | some symbol => return some symbol
      | none =>
          let scope ← table.scope id
          match scope.parent with
          | some parent => table.lookupWithin name steps parent
          | none => return none

/-- The symbol of that name in the nearest scope from `id` outwards. Nesting
without a cycle meets every scope at most once, so the bound on the steps is
never felt. -/
def lookup (table : SymbolTable) (id : ScopeId) (name : String) :
    Except Fault (Option SymbolId) :=
  table.lookupWithin name (table.scopes.size + 1) id

def globalFunction? (table : SymbolTable) (name : String) :
    Option SymbolId :=
  match table.lookupLocal ScopeId.global name with
  | .ok (some id) =>
      if table.symbols[id.index]?.any Symbol.isFunction then some id else none
  | _ => none

/-- Creates a scope. Whether its parent exists shows only when a lookup gets
there. -/
def createScope (table : SymbolTable) (name : String)
    (parent : Option ScopeId) : Run (ScopeId × SymbolTable) := do
  let id : ScopeId := ⟨table.scopes.size⟩
  Run.record (.scopeCreated name id parent)
  return (id, { table with scopes := table.scopes.push { name, parent } })

def allocate (table : SymbolTable) (id : ScopeId) :
    Except Fault (Nat × SymbolTable) := do
  let scope ← table.scope id
  let advanced := { scope with nextLocation := scope.nextLocation + 1 }
  return (scope.nextLocation,
    { table with scopes := table.scopes.setIfInBounds id.index advanced })

def modifySymbol (table : SymbolTable) (id : SymbolId)
    (change : Symbol → Symbol) : SymbolTable :=
  { table with symbols := table.symbols.modify id.index change }

def addReference (table : SymbolTable) (id : SymbolId) (line : Nat) :
    Run SymbolTable := do
  let symbol ← table.symbol id
  Run.record (.symbolUsed symbol.name line)
  return table.modifySymbol id fun symbol => symbol.addLine line

/-- Appends a symbol that its scope does not have yet. -/
def append (table : SymbolTable) (scope : Scope) (symbol : Symbol) :
    SymbolId × SymbolTable :=
  let id : SymbolId := ⟨table.symbols.size⟩
  (id, {
    scopes := table.scopes.setIfInBounds symbol.scope.index
      (scope.link symbol.name id)
    symbols := table.symbols.push symbol })

/-- Declares a name in a scope. If the scope has the name already, this counts
as a use of it and nothing else changes. -/
def insert (table : SymbolTable) (id : ScopeId) (name : String) (type : Ty)
    (line location : Nat) (isFunction : Bool) :
    Run (SymbolId × SymbolTable) := do
  match ← table.lookupLocal id name with
  | some existing =>
      let table ← table.addReference existing line
      return (existing, table)
  | none =>
      let scope ← table.scope id
      Run.record (.symbolInserted name type location scope.name)
      return table.append scope
        { name, type, location, isFunction, latestLines := [line], scope := id }

def addParameter (table : SymbolTable) (function : String) (type : Ty) :
    Except Failure SymbolTable :=
  match table.globalFunction? function with
  | some id =>
      .ok (table.modifySymbol id fun symbol => symbol.addParameter type)
  | none =>
      .error (.symbolTable ("no global function named '" ++ function ++ "'"))

end SymbolTable

end CMinusAnalysis
