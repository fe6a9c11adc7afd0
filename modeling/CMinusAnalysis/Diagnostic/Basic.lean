import CMinusAnalysis.Diagnostic.Kind
import CMinusAnalysis.Text.ByteSink

namespace CMinusAnalysis

/-! A diagnostic is a finding about one source line. The diagnostics of a run
are kept in the order in which they were reported. -/

structure Diagnostic where
  kind : DiagnosticKind
  line : Nat
  name : Option String := none
  deriving DecidableEq, Repr

namespace Diagnostic

def category (diagnostic : Diagnostic) : Category :=
  diagnostic.kind.category

def isInternal (diagnostic : Diagnostic) : Bool :=
  diagnostic.category == .internal

/-- The record of a diagnostic, which is one line unless its name has line
breaks of its own. -/
def text (diagnostic : Diagnostic) : String :=
  let line := toString diagnostic.line
  let message := diagnostic.kind.message
  if diagnostic.kind.isBrief then
    "Type error at line " ++ line ++ ": " ++ message
  else
    match diagnostic.name with
    | some name =>
        diagnostic.category.title ++ " at line(" ++ line ++ "), name=" ++
          name ++ " : " ++ message
    | none =>
        diagnostic.category.title ++ " at line(" ++ line ++ ") : " ++ message

end Diagnostic

structure Diagnostics where
  latestFirst : List Diagnostic := []
  deriving DecidableEq, Repr

namespace Diagnostics

/-- The diagnostics in the order in which they were reported. -/
def items (diagnostics : Diagnostics) : List Diagnostic :=
  diagnostics.latestFirst.reverse

def add (diagnostics : Diagnostics) (diagnostic : Diagnostic) : Diagnostics :=
  ⟨diagnostic :: diagnostics.latestFirst⟩

def size (diagnostics : Diagnostics) : Nat :=
  diagnostics.latestFirst.length

def isEmpty (diagnostics : Diagnostics) : Bool :=
  diagnostics.latestFirst.isEmpty

/-- A run that reported anything has failed, and no code may be generated from
it. -/
def failed (diagnostics : Diagnostics) : Bool :=
  !diagnostics.isEmpty

def hasInternal (diagnostics : Diagnostics) : Bool :=
  diagnostics.items.any Diagnostic.isInternal

def count (diagnostics : Diagnostics) (select : DiagnosticKind → Bool) : Nat :=
  diagnostics.items.countP fun diagnostic => select diagnostic.kind

def writeTo (diagnostics : Diagnostics) (sink : ByteSink) : ByteSink :=
  diagnostics.items.foldl
    (fun sink diagnostic => sink.write (utf8 (diagnostic.text ++ "\n"))) sink

@[ext] theorem ext {left right : Diagnostics}
    (items : left.items = right.items) : left = right := by
  cases left
  cases right
  exact congrArg mk (List.reverse_inj.mp items)

@[simp] theorem items_empty : ({} : Diagnostics).items = [] := rfl

@[simp] theorem items_add (diagnostics : Diagnostics)
    (diagnostic : Diagnostic) :
    (diagnostics.add diagnostic).items = diagnostics.items ++ [diagnostic] :=
  List.reverse_cons

@[simp] theorem size_eq (diagnostics : Diagnostics) :
    diagnostics.size = diagnostics.items.length :=
  List.length_reverse.symm

@[simp] theorem failed_iff {diagnostics : Diagnostics} :
    diagnostics.failed = true ↔ diagnostics.items ≠ [] := by
  simp [failed, isEmpty, items]

end Diagnostics

end CMinusAnalysis
