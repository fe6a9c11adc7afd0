namespace CMinusAnalysis

/-! A failure is trouble of the analysis machinery itself, as opposed to a
diagnostic, which is trouble of the analysed program. -/

inductive Failure where
  | symbolTable (cause : String)
  | rendering (cause : String)
  | output (cause : String)
  deriving DecidableEq, Repr

namespace Failure

def message : Failure → String
  | .symbolTable cause => "Symbol table error: " ++ cause
  | .rendering cause => "Diagnostic rendering error: " ++ cause
  | .output cause => "IO error: " ++ cause

end Failure

end CMinusAnalysis
