import CMinusAnalysis.Facts.NodeTable
import CMinusAnalysis.Symbol.Id

namespace CMinusAnalysis

/-- What the analysis knows about the nodes of a tree. -/
structure Facts where
  types : NodeTable Ty := {}
  /-- The scope that a compound statement opens. -/
  blocks : NodeTable ScopeId := {}
  /-- The symbol of an accepted function declaration. -/
  functions : NodeTable SymbolId := {}
  /-- The uses of names that were not declared at that point. -/
  unresolved : NodeTable Unit := {}

namespace Facts

def setType (facts : Facts) (id : NodeId) (type : Ty) : Facts :=
  { facts with types := facts.types.insert id type }

def setBlock (facts : Facts) (id : NodeId) (scope : ScopeId) : Facts :=
  { facts with blocks := facts.blocks.insert id scope }

def setFunction (facts : Facts) (id : NodeId) (symbol : SymbolId) : Facts :=
  { facts with functions := facts.functions.insert id symbol }

def setUnresolved (facts : Facts) (id : NodeId) : Facts :=
  { facts with unresolved := facts.unresolved.insert id () }

end Facts

end CMinusAnalysis
