import CMinusAnalysis.Analysis.Checking
import CMinusAnalysis.Analysis.Declaring
import CMinusAnalysis.Symbol.Listing

namespace CMinusAnalysis

structure Config where
  listSymbols : Bool := false
  /-- Declare the runtime functions `output` and `input` beforehand. -/
  builtins : Bool := true
  deriving DecidableEq, Repr

structure Analysis where
  table : SymbolTable := {}
  facts : Facts := {}
  diagnostics : Diagnostics := {}

namespace Analysis

def failed (analysis : Analysis) : Bool :=
  analysis.diagnostics.failed

def typeOf (analysis : Analysis) (id : NodeId) : Option Ty :=
  analysis.facts.types.get? id

def function? (analysis : Analysis) (name : String) : Option Symbol := do
  let id ← analysis.table.globalFunction? name
  analysis.table.symbols[id.index]?

def resolveInBlock (analysis : Analysis) (block : NodeId) (name : String) :
    Except Fault (Option Symbol) := do
  match analysis.facts.blocks.get? block with
  | none => return none
  | some scope =>
      match ← analysis.table.lookup scope name with
      | none => return none
      | some id => some <$> analysis.table.symbol id

end Analysis

def declare (config : Config) (tree : Tree) : Run Analysis := do
  let state ← Declaring.run config.builtins tree
  if config.listSymbols then
    Run.record (.listed state.table.listing)
  return { table := state.table, facts := state.facts,
           diagnostics := state.diagnostics }

def Analysis.check (analysis : Analysis) (tree : Tree) : Run Analysis := do
  let state ←
    Checking.run tree analysis.table analysis.facts analysis.diagnostics
  return { analysis with
    facts := state.facts
    diagnostics := state.diagnostics }

def analyze (config : Config) (tree : Tree) : Run Analysis := do
  let declared ← declare config tree
  let checked ← declared.check tree
  Run.record
    (.finished checked.diagnostics.size checked.facts.types.size)
  return checked

end CMinusAnalysis
