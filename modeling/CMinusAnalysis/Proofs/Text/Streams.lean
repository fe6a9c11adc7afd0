import CMinusAnalysis.Text.ByteSink
import CMinusAnalysis.Text.Lines

namespace CMinusAnalysis

/-! Streams of lines. Bytes give back the text that they encode, and text gives
back the lines that were joined to it, each with a newline at its end. A sink
with room for some bytes takes just so many. -/

theorem toByteArray_utf8 (text : String) :
    (utf8 text).toByteArray = text.toByteArray := by
  have joined := String.toByteArray_ofList (l := text.toList)
  rw [String.ofList_toList] at joined
  exact joined.symm

theorem utf8_injective {left right : String} (same : utf8 left = utf8 right) :
    left = right := by
  rw [← String.toByteArray_inj, ← toByteArray_utf8, same, toByteArray_utf8]

theorem splitLines_cons_line {line : List Char} (oneLine : '\n' ∉ line)
    (rest : List Char) :
    splitLines (line ++ '\n' :: rest) =
      (line ++ ['\n']) :: splitLines rest := by
  induction line with
  | nil => simp [splitLines]
  | cons letter line induction =>
      rw [List.mem_cons, not_or] at oneLine
      rw [List.cons_append, splitLines, if_neg (Ne.symm oneLine.1),
        induction oneLine.2]
      rfl

theorem splitLines_join {lines : List (List Char)}
    (oneLine : ∀ line ∈ lines, '\n' ∉ line) :
    splitLines (lines.flatMap (· ++ ['\n'])) =
      lines.map (· ++ ['\n']) ++ [[]] := by
  induction lines with
  | nil => rfl
  | cons line lines induction =>
      obtain ⟨first, others⟩ := List.forall_mem_cons.mp oneLine
      simp only [List.flatMap_cons, List.append_assoc, List.cons_append,
        List.nil_append, List.map_cons]
      rw [splitLines_cons_line first, induction others]

theorem join_injective {left right : List (List Char)}
    (leftLines : ∀ line ∈ left, '\n' ∉ line)
    (rightLines : ∀ line ∈ right, '\n' ∉ line)
    (same : left.flatMap (· ++ ['\n']) = right.flatMap (· ++ ['\n'])) :
    left = right := by
  have split := congrArg splitLines same
  rw [splitLines_join leftLines, splitLines_join rightLines] at split
  have ended := List.append_cancel_right split
  exact (List.map_inj_right fun _ _ => List.append_cancel_right).mp ended

namespace ByteSink

theorem write_nil (sink : ByteSink) : sink.write [] = sink := by
  rcases sink with ⟨room, refusal, latestFirst, refused⟩
  cases refused <;> cases room <;> simp [write]

theorem accepted_unbounded (bytes : List UInt8) :
    (({} : ByteSink).write bytes).accepted = bytes := by
  simp [write, accepted]

theorem failure?_unbounded (bytes : List UInt8) :
    (({} : ByteSink).write bytes).failure? = none := rfl

theorem accepted_bounded (room : Nat) (refusal : String)
    (bytes : List UInt8) :
    (({ room := some room, refusal } : ByteSink).write bytes).accepted =
      bytes.take room := by
  simp [write, accepted]

theorem failure?_bounded (room : Nat) (refusal : String)
    (bytes : List UInt8) :
    (({ room := some room, refusal } : ByteSink).write bytes).failure? =
      if room < bytes.length then some refusal else none := by
  simp [write, failure?]

end ByteSink

end CMinusAnalysis
