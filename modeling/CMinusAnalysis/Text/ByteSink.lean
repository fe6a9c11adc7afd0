import CMinusAnalysis.Text.Utf8

namespace CMinusAnalysis

/-! A byte sink takes bytes until it is full. The first byte that does not fit
is refused, and from then on everything is. -/

structure ByteSink where
  /-- How many more bytes fit, unless the sink is unbounded. -/
  room : Option Nat := none
  refusal : String := "broken pipe"
  latestFirst : List UInt8 := []
  refused : Bool := false
  deriving DecidableEq, Repr

namespace ByteSink

def accepted (sink : ByteSink) : List UInt8 :=
  sink.latestFirst.reverse

def write (sink : ByteSink) (bytes : List UInt8) : ByteSink :=
  if sink.refused then
    sink
  else
    match sink.room with
    | none =>
        { sink with latestFirst := bytes.reverse ++ sink.latestFirst }
    | some room =>
        { sink with
          room := some (room - bytes.length)
          latestFirst := (bytes.take room).reverse ++ sink.latestFirst
          refused := decide (room < bytes.length) }

def failure? (sink : ByteSink) : Option String :=
  if sink.refused then some sink.refusal else none

def admitted (sink : ByteSink) (bytes : List UInt8) : List UInt8 :=
  if sink.refused then []
  else match sink.room with
    | none => bytes
    | some room => bytes.take room

@[simp] theorem accepted_write (sink : ByteSink) (bytes : List UInt8) :
    (sink.write bytes).accepted = sink.accepted ++ sink.admitted bytes := by
  unfold write admitted accepted
  split
  · simp
  · cases sink.room <;> simp

theorem write_of_refused {sink : ByteSink} (refused : sink.refused = true)
    (bytes : List UInt8) : sink.write bytes = sink := by
  simp [write, refused]

theorem write_write (sink : ByteSink) (first second : List UInt8) :
    (sink.write first).write second = sink.write (first ++ second) := by
  rcases sink with ⟨room, refusal, latestFirst, refused⟩
  cases refused with
  | true => simp [write]
  | false =>
      cases room with
      | none => simp [write, List.append_assoc]
      | some room =>
          by_cases full : room < first.length
          · have whole : room < first.length + second.length := by omega
            have rest : room - first.length = 0 := by omega
            have total : room - (first.length + second.length) = 0 := by omega
            simp [write, full, whole, rest, total, List.take_append]
          · have fits : first.length ≤ room := by omega
            simp only [write, full, decide_false, Bool.false_eq_true,
              if_false, List.length_append]
            have remaining : room - first.length < second.length ↔
                room < first.length + second.length := by omega
            have bytes : (first ++ second).take room =
                first ++ second.take (room - first.length) := by
              rw [List.take_append, List.take_of_length_le fits]
            simp [remaining, bytes, List.take_of_length_le fits,
              List.append_assoc, Nat.sub_sub]

end ByteSink

end CMinusAnalysis
