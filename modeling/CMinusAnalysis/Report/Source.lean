import CMinusAnalysis.Text.Lines

namespace CMinusAnalysis

/-! Source files that diagnostics point into. Lines are numbered from one. -/

structure SourceFile where
  name : String
  text : String
  deriving DecidableEq, Repr

/-- A range of bytes, without its end. -/
structure Span where
  start : Nat
  stop : Nat
  deriving DecidableEq, Repr

def byteLength : List Char → Nat
  | [] => 0
  | letter :: rest => letter.utf8Size + byteLength rest

/-- The spans of consecutive pieces of text, the first of which starts at byte
`start`. -/
def spansFrom (start : Nat) : List (List Char) → List Span
  | [] => []
  | piece :: rest =>
      ⟨start, start + byteLength piece⟩ ::
        spansFrom (start + byteLength piece) rest

namespace SourceFile

def lines (file : SourceFile) : List (List Char) :=
  splitLines file.text.toList

def spans (file : SourceFile) : List Span :=
  spansFrom 0 file.lines

/-- The entry for line `number` in a list that has one entry for each line. -/
def atLine (entries : List α) : Nat → Option α
  | 0 => none
  | index + 1 => entries[index]?

def line? (file : SourceFile) (number : Nat) : Option (List Char) :=
  atLine file.lines number

def span? (file : SourceFile) (number : Nat) : Option Span :=
  atLine file.spans number

end SourceFile

end CMinusAnalysis
