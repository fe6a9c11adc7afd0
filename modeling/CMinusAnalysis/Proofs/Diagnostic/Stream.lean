import CMinusAnalysis.Proofs.Analysis.Conditions
import CMinusAnalysis.Proofs.Diagnostic.Decoding

namespace CMinusAnalysis

/-! The stream of diagnostics. It is the records, one on each line, and what a
sink takes of it is its beginning. As no record has a line break, and each tells
its diagnostic, the stream tells the diagnostics. -/

namespace Diagnostics

def stream (diagnostics : Diagnostics) : String :=
  String.join (diagnostics.items.map fun diagnostic => diagnostic.text ++ "\n")

theorem writeTo_eq (diagnostics : Diagnostics) (sink : ByteSink) :
    diagnostics.writeTo sink = sink.write (utf8 diagnostics.stream) := by
  unfold writeTo stream
  induction diagnostics.items generalizing sink with
  | nil => exact (ByteSink.write_nil sink).symm
  | cons diagnostic items induction =>
      rw [List.foldl_cons, induction, ByteSink.write_write, List.map_cons,
        String.join_cons, utf8_append (diagnostic.text ++ "\n")]

theorem toList_stream (diagnostics : Diagnostics) :
    diagnostics.stream.toList =
      (diagnostics.items.map fun diagnostic => diagnostic.text.toList).flatMap
        (· ++ ['\n']) := by
  have newline : "\n".toList = ['\n'] := by decide
  simp only [stream, String.toList_join, List.flatMap_map, String.toList_append,
    newline]

def OneLine (diagnostics : Diagnostics) : Prop :=
  ∀ diagnostic ∈ diagnostics.items, ∀ name ∈ diagnostic.name,
    '\n' ∉ name.toList

theorem alike_of_stream {left right : Diagnostics} (leftWorded : left.Worded)
    (rightWorded : right.Worded) (leftLines : left.OneLine)
    (rightLines : right.OneLine) (same : left.stream = right.stream) :
    List.Forall₂ Diagnostic.Alike left.items right.items := by
  have oneLine {diagnostics : Diagnostics} (worded : diagnostics.Worded)
      (lines : diagnostics.OneLine) :
      ∀ line ∈ diagnostics.items.map fun diagnostic => diagnostic.text.toList,
        '\n' ∉ line := by
    intro line member
    obtain ⟨diagnostic, listed, rfl⟩ := List.mem_map.mp member
    exact Diagnostic.newline_not_mem_text (worded diagnostic listed)
      (lines diagnostic listed)
  have letters := congrArg String.toList same
  rw [toList_stream, toList_stream] at letters
  have records := join_injective (oneLine leftWorded leftLines)
    (oneLine rightWorded rightLines) letters
  rw [← List.forall₂_eq_eq_eq, List.forall₂_map_left_iff,
    List.forall₂_map_right_iff, List.forall₂_iff_zip] at records
  rw [List.forall₂_iff_zip]
  refine ⟨records.1, fun paired => ?_⟩
  obtain ⟨inLeft, inRight⟩ := List.of_mem_zip paired
  exact Diagnostic.alike_of_text (leftWorded _ inLeft) (rightWorded _ inRight)
    (String.toList_inj.mp (records.2 paired))

end Diagnostics

/-- The diagnostics of an analysis can be told from their records, and a list of
them from the stream. A sink takes as much of the stream as it has room for, and
fails if there is more. -/
theorem diagnostics_decodable :
    (∀ (config : Config) (tree : Tree) (analysis : Analysis),
      (analyze config tree).result = .ok analysis →
        ∀ diagnostic ∈ analysis.diagnostics.items,
          diagnostic.kind.NamesStatement) ∧
    (∀ left right : Diagnostic, left.kind.NamesStatement →
      right.kind.NamesStatement → left.text = right.text →
        left.Alike right) ∧
    (∀ left right : Diagnostics, left.Worded → right.Worded →
      left.OneLine → right.OneLine →
      (left.writeTo {}).accepted = (right.writeTo {}).accepted →
        List.Forall₂ Diagnostic.Alike left.items right.items) ∧
    ∀ (diagnostics : Diagnostics) (room : Nat) (refusal : String),
      let full := (diagnostics.writeTo {}).accepted
      let sink := diagnostics.writeTo { room := some room, refusal }
      full = utf8 diagnostics.stream ∧
        (diagnostics.writeTo {}).failure? = none ∧
        sink.accepted = full.take room ∧
        sink.failure? =
          if room < full.length then some refusal else none := by
  refine ⟨fun config tree analysis ended => analyze_worded config tree _ ended,
    fun left right => Diagnostic.alike_of_text, ?_, ?_⟩
  · intro left right leftWorded rightWorded leftLines rightLines same
    simp only [Diagnostics.writeTo_eq, ByteSink.accepted_unbounded] at same
    exact Diagnostics.alike_of_stream leftWorded rightWorded leftLines
      rightLines (utf8_injective same)
  · intro diagnostics room refusal
    simp only [Diagnostics.writeTo_eq, ByteSink.accepted_unbounded]
    exact ⟨trivial, ByteSink.failure?_unbounded _,
      ByteSink.accepted_bounded room refusal _,
      ByteSink.failure?_bounded room refusal _⟩

def untested : Tree where
  nodes := #[{ kind := .statement .loop, line := 2 }]
  root := some ⟨0⟩

/-- A void test with a name, which its record leaves out, and a use of a name
that looks like the end of a record. -/
def dividedNames (test : Option String) : Diagnostics where
  latestFirst :=
    [⟨.undeclared, 4, some "x : function redeclared, name=y"⟩,
      ⟨.voidCondition "if", 3, test⟩]

theorem decodable_with_divided_names :
    (∃ analysis, (analyze {} untested).result = .ok analysis ∧
      analysis.diagnostics.items = [⟨.missingCondition "while", 2, none⟩] ∧
      analysis.diagnostics.Worded) ∧
    Diagnostic.Alike ⟨.voidWrite, 5, none⟩ ⟨.voidWrite, 5, some "x"⟩ ∧
    ((dividedNames none).writeTo {}).accepted =
      ((dividedNames (some "x")).writeTo {}).accepted ∧
    List.Forall₂ Diagnostic.Alike (dividedNames none).items
      (dividedNames (some "x")).items := by
  obtain ⟨reported, told, streamed, _⟩ := diagnostics_decodable
  have worded (test : Option String) : (dividedNames test).Worded := by
    simp [Diagnostics.Worded, dividedNames, Diagnostics.items,
      DiagnosticKind.NamesStatement]
  have oneLine (test : Option String)
      (line : ∀ name ∈ test, '\n' ∉ name.toList) :
      (dividedNames test).OneLine := by
    simp only [Diagnostics.OneLine, dividedNames, Diagnostics.items,
      List.reverse_cons, List.reverse_nil, List.nil_append,
      List.cons_append, List.forall_mem_cons]
    refine ⟨line, ?_, by simp⟩
    decide
  have same : ((dividedNames none).writeTo {}).accepted =
      ((dividedNames (some "x")).writeTo {}).accepted := by
    rw [Diagnostics.writeTo_eq, Diagnostics.writeTo_eq]
    rfl
  refine ⟨⟨_, rfl, rfl, reported {} untested _ rfl⟩,
    told _ _ trivial trivial rfl, same, ?_⟩
  exact streamed _ _ (worded _) (worded _) (oneLine _ (by simp))
    (oneLine _ (by decide)) same

end CMinusAnalysis
