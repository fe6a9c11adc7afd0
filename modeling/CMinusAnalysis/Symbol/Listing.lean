import CMinusAnalysis.Symbol.Table
import CMinusAnalysis.Text.ByteSink
import CMinusAnalysis.Text.Column

namespace CMinusAnalysis

/-! The listing of a symbol table: two heading lines, then a row for every
symbol, scope by scope and in each scope bucket by bucket. -/

namespace SymbolTable

def heading : String :=
  "Variable Name  Variable Type  Scope Name  Location   Line Numbers\n" ++
    "-------------  -------------  ----------  --------   ------------\n"

def row (scopeName : String) (symbol : Symbol) : String :=
  padRight 15 symbol.name ++ padRight 15 symbol.kindLabel ++
    padRight 12 scopeName ++ padRight 11 (toString symbol.location) ++
    String.intercalate " " (symbol.lines.map fun line => toString line) ++ "\n"

def scopeRows (table : SymbolTable) (scope : Scope) : List String :=
  scope.symbols.filterMap fun id =>
    table.symbols[id.index]?.map (row scope.name)

def rows (table : SymbolTable) : List String :=
  table.scopes.toList.flatMap table.scopeRows

def listing (table : SymbolTable) : String :=
  heading ++ String.join table.rows

def writeListing (table : SymbolTable) (sink : ByteSink) : ByteSink :=
  sink.write (utf8 table.listing)

end SymbolTable

end CMinusAnalysis
