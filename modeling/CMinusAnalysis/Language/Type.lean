namespace CMinusAnalysis

inductive TypeSpec where
  | int
  | void
  deriving DecidableEq, Repr

inductive Ty where
  | integer
  | void
  | integerArray
  deriving DecidableEq, Repr

namespace Ty

/-- The result type of a function declared with this type word. Only `int`
promises a value. -/
def ofReturnSpec : Option TypeSpec → Ty
  | some .int => .integer
  | some .void | none => .void

def storage (isArray : Bool) : Ty :=
  if isArray then .integerArray else .integer

def name : Ty → String
  | .integer => "Integer"
  | .void => "Void"
  | .integerArray => "IntegerArray"

theorem name_injective {left right : Ty} (equal : left.name = right.name) :
    left = right := by
  cases left <;> cases right <;> simp_all [name]

end Ty

end CMinusAnalysis
