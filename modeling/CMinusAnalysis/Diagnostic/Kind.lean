import CMinusAnalysis.Language.Operator
import CMinusAnalysis.Language.Type

namespace CMinusAnalysis

/-- The broad class of a diagnostic. An internal one says that the two passes
of the analysis contradict each other, which is no fault of the program. -/
inductive Category where
  | scope
  | type
  | internal
  deriving DecidableEq, Repr

namespace Category

def title : Category → String
  | .scope => "Scope error"
  | .type => "Type error"
  | .internal => "Internal error"

end Category

inductive DiagnosticKind where
  | undeclared
  | functionRedeclared
  | functionNotGlobal
  | variableRedeclared
  | arrayRedeclared
  | parameterRedeclared
  | voidVariable
  | missingTypeSpecifier
  | voidOperand (op : BinaryOp)
  | operandTypeMismatch (op : BinaryOp) (left right : Ty)
  | voidAssignment
  | assignmentTypeMismatch (target value : Ty)
  | functionNotDeclared
  | notAFunction
  | argumentCountMismatch (expected found : Nat)
  /-- The argument's position counts from one. -/
  | argumentTypeMismatch (position : Nat) (expected found : Ty)
  | returnValueInVoid
  | missingReturnValue
  | returnTypeMismatch (expected found : Ty)
  | missingCondition (statement : String)
  | voidCondition (statement : String)
  | voidWrite
  /-- A name that was resolved when it was declared has gone missing. -/
  | nameLost
  | blockScopeLost
  deriving DecidableEq, Repr

namespace DiagnosticKind

def category : DiagnosticKind → Category
  | .undeclared | .functionRedeclared | .functionNotGlobal
  | .variableRedeclared | .arrayRedeclared | .parameterRedeclared => .scope
  | .nameLost | .blockScopeLost => .internal
  | _ => .type

def message : DiagnosticKind → String
  | .undeclared => "identifier is not declared"
  | .functionRedeclared => "function redeclared"
  | .functionNotGlobal => "functions may only be declared at global scope"
  | .variableRedeclared => "variable redeclared"
  | .arrayRedeclared => "array redeclared"
  | .parameterRedeclared => "parameter redeclared"
  | .voidVariable => "variable cannot be declared void"
  | .missingTypeSpecifier => "declaration has no type"
  | .voidOperand op => "operand of '" ++ op.symbol ++ "' is void"
  | .operandTypeMismatch op left right =>
      "operand type mismatch: " ++ left.name ++ " " ++ op.symbol ++ " " ++
        right.name
  | .voidAssignment => "cannot assign to or from void"
  | .assignmentTypeMismatch target value =>
      "type does not match: " ++ target.name ++ " = " ++ value.name
  | .functionNotDeclared => "function is not declared"
  | .notAFunction => "is not a function"
  | .argumentCountMismatch expected found =>
      "argument count mismatch: expected " ++ toString expected ++
        ", found " ++ toString found
  | .argumentTypeMismatch position expected found =>
      "argument type mismatch at position " ++ toString position ++
        ": expected " ++ expected.name ++ ", found " ++ found.name
  | .returnValueInVoid => "function should return nothing"
  | .missingReturnValue => "function should return something"
  | .returnTypeMismatch expected found =>
      "return type mismatch: expected " ++ expected.name ++ ", found " ++
        found.name
  | .missingCondition statement => statement ++ " statement has no test"
  | .voidCondition statement => statement ++ " test is void"
  | .voidWrite => "write of void value"
  | .nameLost =>
      "name resolved while building the symbol table is missing"
  | .blockScopeLost => "block has no recorded scope"

/-- Void tests and void writes are recorded in a brief form, which has no room
for a name. -/
def isBrief : DiagnosticKind → Bool
  | .voidCondition _ | .voidWrite => true
  | _ => false

end DiagnosticKind

end CMinusAnalysis
