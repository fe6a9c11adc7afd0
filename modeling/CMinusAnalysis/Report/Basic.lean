import CMinusAnalysis.Diagnostic.Basic
import CMinusAnalysis.Report.Source

namespace CMinusAnalysis

/-! A report shows a diagnostic to the reader of the program. It labels the
source line where there is one, and otherwise falls back to a note with the
whole record. -/

inductive Severity where
  | bug
  | error
  deriving DecidableEq, Repr

namespace Severity

def word : Severity → String
  | .bug => "bug"
  | .error => "error"

end Severity

structure Label where
  file : SourceFile
  line : Nat
  span : Span
  message : String
  deriving DecidableEq, Repr

structure Report where
  severity : Severity
  title : String
  labels : List Label := []
  notes : List String := []
  deriving DecidableEq, Repr

namespace Report

def label? (files : List SourceFile) (file : Nat) (diagnostic : Diagnostic) :
    Option Label := do
  let source ← files[file]?
  let span ← source.span? diagnostic.line
  return ⟨source, diagnostic.line, span, diagnostic.kind.message⟩

def ofDiagnostic (files : List SourceFile) (file : Nat)
    (diagnostic : Diagnostic) : Report :=
  let severity := if diagnostic.isInternal then .bug else .error
  let title := diagnostic.category.title
  match label? files file diagnostic with
  | some label => { severity, title, labels := [label] }
  | none => { severity, title, notes := [diagnostic.text] }

end Report

end CMinusAnalysis
