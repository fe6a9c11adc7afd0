namespace CMinusAnalysis

/-- Fills `text` with blanks on the right up to `width` characters. Longer text
is left as it is. -/
def padRight (width : Nat) (text : String) : String :=
  String.ofList (text.toList.rightpad width ' ')

def padLeft (width : Nat) (text : String) : String :=
  String.ofList (text.toList.leftpad width ' ')

def blanks (count : Nat) : String :=
  String.ofList (List.replicate count ' ')

@[simp] theorem toList_padRight (width : Nat) (text : String) :
    (padRight width text).toList =
      text.toList ++ List.replicate (width - text.toList.length) ' ' := by
  simp [padRight, List.rightpad]

end CMinusAnalysis
