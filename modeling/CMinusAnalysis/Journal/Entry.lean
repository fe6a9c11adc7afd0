import CMinusAnalysis.Diagnostic.Basic
import CMinusAnalysis.Failure
import CMinusAnalysis.Symbol.Id

namespace CMinusAnalysis

inductive Level where
  | error
  | info
  | debug
  | trace
  deriving DecidableEq, Repr

namespace Level

def name : Level → String
  | .error => "error"
  | .info => "info"
  | .debug => "debug"
  | .trace => "trace"

def verbosity : Level → Nat
  | .error => 0
  | .info => 1
  | .debug => 2
  | .trace => 3

/-- Whether a journal kept at `threshold` shows entries of this level. -/
def shownAt (level threshold : Level) : Bool :=
  level.verbosity ≤ threshold.verbosity

end Level

inductive Entry where
  | scopeCreated (name : String) (id : ScopeId) (parent : Option ScopeId)
  | symbolInserted (name : String) (type : Ty) (location : Nat)
      (scopeName : String)
  | symbolUsed (name : String) (line : Nat)
  | signatureRefused (failure : Failure)
  | declaring (nodeCount : Nat)
  | listed (listing : String)
  | checking (nodeCount : Nat)
  | nothingToCheck
  | blockEntered (scopeName : String)
  | reported (diagnostic : Diagnostic)
  | reportLost (failure : Failure) (diagnostic : Diagnostic)
  | finished (diagnosticCount typedCount : Nat)
  deriving DecidableEq, Repr

namespace Entry

def level : Entry → Level
  | .signatureRefused _ | .reportLost .. => .error
  | .reported diagnostic => if diagnostic.isInternal then .error else .debug
  | .listed _ => .info
  | .symbolInserted .. | .symbolUsed .. => .trace
  | _ => .debug

def parentLabel : Option ScopeId → String
  | some parent => "Some(" ++ parent.label ++ ")"
  | none => "None"

def message : Entry → String
  | .scopeCreated name id parent =>
      "create scope '" ++ name ++ "' (" ++ id.label ++ ", parent " ++
        parentLabel parent ++ ")"
  | .symbolInserted name type location scopeName =>
      "insert '" ++ name ++ "' : " ++ type.name ++ " at location " ++
        toString location ++ " in scope '" ++ scopeName ++ "'"
  | .symbolUsed name line =>
      "reference '" ++ name ++ "' at line " ++ toString line
  | .signatureRefused failure => failure.message
  | .declaring nodeCount =>
      "building symbol table over " ++ toString nodeCount ++ " nodes"
  | .listed listing => "\nSymbol table:\n\n" ++ listing
  | .checking nodeCount =>
      "type checking " ++ toString nodeCount ++ " nodes"
  | .nothingToCheck => "no global scope, skipping type check"
  | .blockEntered scopeName => "enter scope '" ++ scopeName ++ "'"
  | .reported diagnostic => diagnostic.text
  | .reportLost failure diagnostic =>
      failure.message ++ " while reporting: " ++ diagnostic.text
  | .finished diagnosticCount typedCount =>
      "analysis finished: " ++ toString diagnosticCount ++
        " diagnostics, " ++ toString typedCount ++ " typed nodes"

end Entry

end CMinusAnalysis
