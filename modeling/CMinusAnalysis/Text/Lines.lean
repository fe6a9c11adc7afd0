namespace CMinusAnalysis

/-! Lines of a text. A line ends after its newline, so the lines of a text put
together again are the text, and the last line is the one without a newline. -/

def splitLines : List Char → List (List Char)
  | [] => [[]]
  | letter :: rest =>
      if letter = '\n' then
        ['\n'] :: splitLines rest
      else
        match splitLines rest with
        | [] => [[letter]]
        | line :: lines => (letter :: line) :: lines

theorem splitLines_ne_nil (text : List Char) : splitLines text ≠ [] := by
  induction text with
  | nil => simp [splitLines]
  | cons letter rest induction =>
      unfold splitLines
      split
      · simp
      · split <;> simp

@[simp] theorem flatten_splitLines (text : List Char) :
    (splitLines text).flatten = text := by
  induction text with
  | nil => rfl
  | cons letter rest induction =>
      unfold splitLines
      split
      · next newline => simp [newline, induction]
      · cases equation : splitLines rest with
        | nil => exact absurd equation (splitLines_ne_nil rest)
        | cons line lines =>
            rw [equation] at induction
            simpa using induction

@[simp] theorem length_splitLines (text : List Char) :
    (splitLines text).length = text.count '\n' + 1 := by
  induction text with
  | nil => rfl
  | cons letter rest induction =>
      unfold splitLines
      split
      · next newline => simp [newline, induction]
      · next other =>
          cases equation : splitLines rest with
          | nil => exact absurd equation (splitLines_ne_nil rest)
          | cons line lines =>
              rw [equation] at induction
              simpa [List.count_cons, other] using induction

/-- A line without its line break, which is a newline or a carriage return and
a newline. -/
def dropBreak (line : List Char) : List Char :=
  match line.reverse with
  | '\n' :: '\r' :: rest => rest.reverse
  | '\n' :: rest => rest.reverse
  | _ => line

/-- The lines of a text without their line breaks. What follows the last line
break counts only if there is something. -/
def textLines (text : String) : List String :=
  let lines := splitLines text.toList
  let lines := if lines.getLast? = some [] then lines.dropLast else lines
  lines.map fun line => String.ofList (dropBreak line)

end CMinusAnalysis
