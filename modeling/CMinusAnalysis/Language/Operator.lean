namespace CMinusAnalysis

inductive BinaryOp where
  | add
  | sub
  | mul
  | div
  | lt
  | le
  | gt
  | ge
  | eq
  | ne
  deriving DecidableEq, Repr

namespace BinaryOp

def symbol : BinaryOp → String
  | .add => "+"
  | .sub => "-"
  | .mul => "*"
  | .div => "/"
  | .lt => "<"
  | .le => "<="
  | .gt => ">"
  | .ge => ">="
  | .eq => "=="
  | .ne => "!="

theorem symbol_injective {left right : BinaryOp}
    (equal : left.symbol = right.symbol) : left = right := by
  cases left <;> cases right <;> simp_all [symbol]

end BinaryOp

end CMinusAnalysis
