import CMinusAnalysis.Report.Basic
import CMinusAnalysis.Text.Column
import CMinusAnalysis.Text.DisplayWidth

namespace CMinusAnalysis

/-! How a report looks on a terminal. A line number stands in a gutter on the
left, divided by a bar from the source text. The span of a line reaches the
start of the next one, so the label of any line but the last is drawn as a
bracket around two lines; the last line is underlined. -/

def tabStop : Nat := 4

/-- Characters at the end of a line that are not shown. -/
def isLineEnd (letter : Char) : Bool :=
  letter = '\n' || letter = '\r' || letter = '\x00'

def trimEnd (line : List Char) : List Char :=
  (line.reverse.dropWhile isLineEnd).reverse

def shownLine (line : List Char) : List Char :=
  expandTabs tabStop 0 (trimEnd line)

/-- The underline of a line has a mark for every column, and one more for a
line end or for an empty line. -/
def underline (line : List Char) : String :=
  let shown := shownLine line
  let extra :=
    if line.isEmpty || (trimEnd line).length < line.length then 1 else 0
  String.ofList (List.replicate (displayWidth shown + extra) '^')

namespace Label

def position (label : Label) : String :=
  label.file.name ++ ":" ++ toString label.line ++ ":1"

def underlined (label : Label) (line : List Char) : List String :=
  let number := toString label.line
  let gutter := blanks number.length
  [gutter ++ " ┌─ " ++ label.position,
    gutter ++ " │",
    number ++ " │ " ++ String.ofList (shownLine line),
    gutter ++ " │ " ++ underline line ++ " " ++ label.message]

def bracketed (label : Label) (line next : List Char) : List String :=
  let number := toString label.line
  let nextNumber := toString (label.line + 1)
  let width := nextNumber.length
  let gutter := blanks width
  [gutter ++ " ┌─ " ++ label.position,
    gutter ++ " │  ",
    padLeft width number ++ " │ ╭ " ++ String.ofList (shownLine line),
    nextNumber ++ " │ │ " ++ String.ofList (shownLine next),
    gutter ++ " │ ╰^ " ++ label.message]

def rows (label : Label) : List String :=
  match label.file.line? label.line, label.file.line? (label.line + 1) with
  | some line, some next => label.bracketed line next
  | some line, none => label.underlined line
  | none, _ => []

end Label

namespace Report

/-- The rows of a note. Its first row has a bullet, and further rows stand
under the text of the first. -/
def noteRows (note : String) : List String :=
  match textLines note with
  | [] => []
  | first :: rest => (" = " ++ first) :: rest.map ("   " ++ ·)

def rows (report : Report) : List String :=
  (report.severity.word ++ ": " ++ report.title) ::
    (report.labels.flatMap Label.rows ++ report.notes.flatMap noteRows)

def text (report : Report) : String :=
  String.join (report.rows.map (· ++ "\n")) ++ "\n"

end Report

end CMinusAnalysis
