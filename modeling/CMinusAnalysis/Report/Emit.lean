import CMinusAnalysis.Journal.Run
import CMinusAnalysis.Report.Layout

namespace CMinusAnalysis

namespace Report

def emit (files : List SourceFile) (file : Nat) (sink : ByteSink)
    (diagnostic : Diagnostic) : ByteSink :=
  sink.write (utf8 (ofDiagnostic files file diagnostic).text)

def failure? (sink : ByteSink) : Option Failure :=
  sink.failure?.map Failure.rendering

def emitNoting (files : List SourceFile) (file : Nat) (sink : ByteSink)
    (diagnostic : Diagnostic) : Run ByteSink := do
  let sink := emit files file sink diagnostic
  match failure? sink with
  | some failure => Run.record (.reportLost failure diagnostic)
  | none => pure ⟨⟩
  return sink

/-- Reports every diagnostic, whether or not those before it got out. -/
def emitAll (files : List SourceFile) (file : Nat) (sink : ByteSink)
    (diagnostics : List Diagnostic) : Run ByteSink :=
  diagnostics.foldlM (emitNoting files file) sink

end Report

end CMinusAnalysis
