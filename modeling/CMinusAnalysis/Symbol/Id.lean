namespace CMinusAnalysis

@[ext] structure ScopeId where
  index : Nat
  deriving DecidableEq, Repr

@[ext] structure SymbolId where
  index : Nat
  deriving DecidableEq, Repr

namespace ScopeId

/-- The scope that is created first encloses the whole program. -/
def global : ScopeId := ⟨0⟩

def label (id : ScopeId) : String :=
  "ScopeId(" ++ toString id.index ++ ")"

end ScopeId

end CMinusAnalysis
