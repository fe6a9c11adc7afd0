import CMinusAnalysis.Proofs.Text.Streams
import CMinusAnalysis.Report.Basic
import Mathlib.Data.List.Basic
import Mathlib.Order.Monotone.Basic

namespace CMinusAnalysis

/-! Where the lines of a source are, and what reports make of it. The range of
a line goes from one line start to the next one, or to the end of the source. So
the ranges follow each other without gaps, and none of them cuts a character in
two. -/

theorem byteLength_append (left right : List Char) :
    byteLength (left ++ right) = byteLength left + byteLength right := by
  induction left with
  | nil => simp [byteLength]
  | cons letter left induction =>
      simp [byteLength, induction, Nat.add_assoc]

theorem byteLength_eq_utf8ByteSize (text : String) :
    byteLength text.toList = text.utf8ByteSize := by
  obtain ⟨letters, rfl⟩ := text.exists_eq_ofList
  rw [String.toList_ofList]
  induction letters with
  | nil => rfl
  | cons letter rest induction =>
      simp [byteLength, String.ofList_cons, induction]

theorem length_utf8 (text : String) :
    (utf8 text).length = byteLength text.toList := by
  unfold utf8
  induction text.toList with
  | nil => rfl
  | cons letter rest induction => simp [byteLength, induction]

theorem newline_not_mem_utf8EncodeChar {letter : Char} (other : letter ≠ '\n') :
    10 ∉ String.utf8EncodeChar letter := by
  have code : letter.val.toNat ≠ 10 := by
    intro same
    exact other (Char.ext (UInt32.toNat_inj.mp same))
  have byte {number : Nat} (same : 10 = UInt8.ofNat number) :
      number % 256 = 10 := by
    have numbers := congrArg UInt8.toNat same
    simpa using numbers.symm
  -- A longer form has only bytes from 128 on.
  fun_cases String.utf8EncodeChar letter <;>
    simp only [List.mem_cons, List.not_mem_nil, or_false] <;> grind

def reach (pieces : List (List Char)) (count : Nat) : Nat :=
  byteLength (pieces.take count).flatten

theorem reach_cons (piece : List Char) (pieces : List (List Char))
    (count : Nat) :
    reach (piece :: pieces) (count + 1) =
      byteLength piece + reach pieces count := by
  rw [reach, List.take_succ_cons, List.flatten_cons, byteLength_append]
  rfl

theorem reach_succ {piece : List Char} {pieces : List (List Char)}
    {count : Nat} (next : pieces[count]? = some piece) :
    reach pieces (count + 1) = reach pieces count + byteLength piece := by
  rw [reach, List.take_add_one, next, List.flatten_append, byteLength_append,
    reach, Option.toList_some, List.flatten_singleton]

theorem reach_mono (pieces : List (List Char)) : Monotone (reach pieces) := by
  apply monotone_nat_of_le_succ
  intro count
  rw [reach, reach, List.take_add_one, List.flatten_append, byteLength_append]
  exact Nat.le_add_right _ _

theorem getElem?_spansFrom (start : Nat) (pieces : List (List Char))
    (index : Nat) :
    (spansFrom start pieces)[index]? = pieces[index]?.map fun _ =>
      ⟨start + reach pieces index, start + reach pieces (index + 1)⟩ := by
  induction pieces generalizing start index with
  | nil => rfl
  | cons piece pieces induction =>
      cases index with
      | zero => simp [spansFrom, reach, byteLength]
      | succ index =>
          simp only [spansFrom, List.getElem?_cons_succ, induction, reach_cons,
            Nat.add_assoc]

theorem existsUnique_piece {pieces : List (List Char)} {count offset : Nat}
    (inside : offset < reach pieces count) :
    ∃! index, index < count ∧
      reach pieces index ≤ offset ∧ offset < reach pieces (index + 1) := by
  have found : ∃ index < count,
      reach pieces index ≤ offset ∧ offset < reach pieces (index + 1) := by
    induction count with
    | zero => cases inside
    | succ count induction =>
        by_cases earlier : offset < reach pieces count
        · obtain ⟨index, below, around⟩ := induction earlier
          exact ⟨index, Nat.lt_succ_of_lt below, around⟩
        · exact ⟨count, Nat.lt_succ_self count, Nat.le_of_not_lt earlier,
            inside⟩
  obtain ⟨index, below, starts, stops⟩ := found
  refine ⟨index, ⟨below, starts, stops⟩, ?_⟩
  rintro other ⟨_, starts', stops'⟩
  rcases Nat.lt_trichotomy other index with before | same | after
  · have apart : reach pieces (other + 1) ≤ reach pieces index :=
      reach_mono pieces before
    omega
  · exact same
  · have apart : reach pieces (index + 1) ≤ reach pieces other :=
      reach_mono pieces after
    omega

def Ended (line : List Char) : Prop :=
  ∃ letters, line = letters ++ ['\n'] ∧ '\n' ∉ letters

theorem splitLines_shape (text : List Char) :
    ∃ front last, splitLines text = front ++ [last] ∧
      (∀ line ∈ front, Ended line) ∧ '\n' ∉ last := by
  induction text with
  | nil => exact ⟨[], [], rfl, by simp, by simp⟩
  | cons letter rest induction =>
      obtain ⟨front, last, split, ended, unended⟩ := induction
      unfold splitLines
      split
      · refine ⟨['\n'] :: front, last, by rw [split]; rfl, ?_, unended⟩
        exact List.forall_mem_cons.mpr ⟨⟨[], rfl, by simp⟩, ended⟩
      · next other =>
          cases front with
          | nil =>
              refine ⟨[], letter :: last, by rw [split]; rfl, by simp, ?_⟩
              simp [unended, Ne.symm other]
          | cons line front =>
              obtain ⟨⟨letters, rfl, inside⟩, others⟩ :=
                List.forall_mem_cons.mp ended
              refine ⟨(letter :: (letters ++ ['\n'])) :: front, last,
                by rw [split]; rfl, ?_, unended⟩
              refine List.forall_mem_cons.mpr ⟨⟨letter :: letters, rfl, ?_⟩,
                others⟩
              simp [inside, Ne.symm other]

theorem count_flatten {lines : List (List Char)}
    (ended : ∀ line ∈ lines, Ended line) :
    lines.flatten.count '\n' = lines.length := by
  induction lines with
  | nil => rfl
  | cons line lines induction =>
      obtain ⟨⟨letters, rfl, inside⟩, others⟩ := List.forall_mem_cons.mp ended
      rw [List.flatten_cons, List.count_append, induction others,
        List.count_append, List.count_eq_zero_of_not_mem inside,
        List.length_cons]
      simp [Nat.add_comm]

theorem getLast?_flatten {lines : List (List Char)}
    (ended : ∀ line ∈ lines, Ended line) :
    lines.flatten = [] ∨ lines.flatten.getLast? = some '\n' := by
  rcases List.eq_nil_or_concat lines with rfl | ⟨front, last, rfl⟩
  · exact .inl rfl
  · obtain ⟨letters, rfl, _⟩ := ended last (by simp)
    right
    simp

namespace SourceFile

variable (source : SourceFile)

/-- Where lines start: at the first byte and after every newline. -/
def lineStarts : List Nat :=
  0 :: ((utf8 source.text).findIdxs (· == 10)).map (· + 1)

/-- From the start of a line, counted from zero, to the start of the next one or
to the end of the source. -/
def lineRange? (index : Nat) : Option Span :=
  source.lineStarts[index]?.map fun start =>
    ⟨start, source.lineStarts[index + 1]?.getD (utf8 source.text).length⟩

theorem starts_spansFrom (start : Nat) (text : List Char) :
    (spansFrom start (splitLines text)).map Span.start =
      start :: ((text.flatMap String.utf8EncodeChar).findIdxs (· == 10)
        start).map (· + 1) := by
  induction text generalizing start with
  | nil => rfl
  | cons letter rest induction =>
      rw [List.flatMap_cons, List.findIdxs_append, List.map_append]
      unfold splitLines
      split
      · next newline =>
          subst newline
          have encoded : String.utf8EncodeChar '\n' = [10] := by decide
          have step : byteLength ['\n'] = 1 := by decide
          simp [spansFrom, induction, encoded, step]
      · next other =>
          have unmarked : (String.utf8EncodeChar letter).findIdxs (· == 10)
              start = [] := by
            rw [List.findIdxs_eq_nil_iff]
            intro byte member
            rw [beq_eq_false_iff_ne]
            rintro rfl
            exact newline_not_mem_utf8EncodeChar other member
          rw [unmarked, String.length_utf8EncodeChar]
          have later := induction (start + letter.utf8Size)
          cases split : splitLines rest with
          | nil => exact absurd split (splitLines_ne_nil rest)
          | cons line lines =>
              rw [split] at later
              simp only [spansFrom, List.map_cons, List.cons.injEq, true_and]
                at later
              simp [spansFrom, byteLength, ← Nat.add_assoc, later]

theorem lineStarts_eq : source.lineStarts = source.spans.map Span.start :=
  (starts_spansFrom 0 source.text.toList).symm

theorem reach_length :
    reach source.lines source.lines.length = (utf8 source.text).length := by
  rw [reach, List.take_length, lines, flatten_splitLines, length_utf8]

theorem lineRange?_eq (index : Nat) :
    source.lineRange? index = source.lines[index]?.map fun _ =>
      ⟨reach source.lines index, reach source.lines (index + 1)⟩ := by
  have starts (index : Nat) : source.lineStarts[index]? =
      source.lines[index]?.map fun _ => reach source.lines index := by
    rw [lineStarts_eq, spans, List.getElem?_map, getElem?_spansFrom,
      Option.map_map]
    simp [Function.comp_def]
  rw [lineRange?, starts, starts, Option.map_map]
  cases here : source.lines[index]? with
  | none => rfl
  | some line =>
      have stop : ((source.lines[index + 1]?.map fun _ =>
          reach source.lines (index + 1)).getD (utf8 source.text).length) =
            reach source.lines (index + 1) := by
        cases next : source.lines[index + 1]? with
        | some following => rfl
        | none =>
            have inside := (List.getElem?_eq_some_iff.mp here).1
            have outside := List.getElem?_eq_none_iff.mp next
            have last : index + 1 = source.lines.length := by omega
            rw [last, reach_length]
            rfl
      rw [stop]
      rfl

theorem span?_succ (index : Nat) :
    source.span? (index + 1) = source.lineRange? index := by
  rw [lineRange?_eq]
  change source.spans[index]? = _
  rw [spans, getElem?_spansFrom]
  simp only [Nat.zero_add]

/-- The span marks off line `number` of the source, with its newline. -/
def MarksLine (number : Nat) (span : Span) : Prop :=
  ∃ before line after : String,
    source.text = before ++ (line ++ after) ∧
    span = ⟨before.utf8ByteSize, before.utf8ByteSize + line.utf8ByteSize⟩ ∧
    before.toList.count '\n' + 1 = number ∧
    (before = "" ∨ before.toList.getLast? = some '\n') ∧
    '\n' ∉ line.toList.dropLast ∧
    (after = "" ∨ line.toList.getLast? = some '\n')

variable {source}

theorem lines_around {line : List Char} {index : Nat}
    (stored : source.lines[index]? = some line) :
    (∀ earlier ∈ source.lines.take index, Ended earlier) ∧
      '\n' ∉ line.dropLast ∧
      (source.lines.drop (index + 1) = [] ∨ line.getLast? = some '\n') := by
  obtain ⟨front, last, split, ended, unended⟩ :=
    splitLines_shape source.text.toList
  rw [lines, split] at stored ⊢
  rcases Nat.lt_or_ge index front.length with inFront | atEnd
  · rw [List.getElem?_append_left inFront] at stored
    rw [List.take_append_of_le_length (Nat.le_of_lt inFront)]
    obtain ⟨letters, rfl, inside⟩ := ended line (List.mem_of_getElem? stored)
    refine ⟨fun earlier member => ended earlier (List.mem_of_mem_take member),
      ?_, ?_⟩
    · rwa [List.dropLast_concat]
    · right
      simp
  · rw [List.getElem?_append_right atEnd, List.getElem?_singleton] at stored
    split at stored
    · next here =>
        cases stored
        have same : index = front.length := by omega
        subst same
        refine ⟨?_, ?_, .inl ?_⟩
        · rwa [List.take_left]
        · exact fun member => unended (List.dropLast_subset _ member)
        · simp
    · cases stored

theorem marksLine {index : Nat} {span : Span}
    (range : source.lineRange? index = some span) :
    source.MarksLine (index + 1) span := by
  rw [lineRange?_eq] at range
  obtain ⟨line, stored, rfl⟩ := Option.map_eq_some_iff.mp range
  obtain ⟨ended, inner, final⟩ := lines_around stored
  obtain ⟨inside, here⟩ := List.getElem?_eq_some_iff.mp stored
  have parts : source.lines.take index ++
      line :: source.lines.drop (index + 1) = source.lines := by
    rw [← here, List.getElem_cons_drop, List.take_append_drop]
  refine ⟨String.ofList (source.lines.take index).flatten, String.ofList line,
    String.ofList (source.lines.drop (index + 1)).flatten, ?_, ?_, ?_, ?_, ?_,
    ?_⟩
  · apply String.toList_injective
    have whole : source.lines.flatten = source.text.toList :=
      flatten_splitLines _
    rw [← whole]
    conv => lhs; rw [← parts]
    simp
  · rw [reach_succ stored, ← byteLength_eq_utf8ByteSize,
      ← byteLength_eq_utf8ByteSize, String.toList_ofList, String.toList_ofList,
      reach]
  · rw [String.toList_ofList, count_flatten ended, List.length_take,
      Nat.min_eq_left (Nat.le_of_lt inside)]
  · rw [String.toList_ofList]
    exact (getLast?_flatten ended).imp_left fun none => by rw [none]
  · rwa [String.toList_ofList]
  · rw [String.toList_ofList]
    exact final.imp_left fun none => by rw [none]; rfl

theorem isSome_lineRange?_iff {index : Nat} :
    (source.lineRange? index).isSome = true ↔
      index ≤ source.text.toList.count '\n' := by
  rw [lineRange?_eq, Option.isSome_map, isSome_getElem?, lines,
    length_splitLines]
  exact Nat.lt_succ_iff

/-- The ranges of the lines follow each other from the first byte to the last,
and cut the source between characters. -/
structure Tiled (source : SourceFile) : Prop where
  counted (index : Nat) : (source.lineRange? index).isSome = true ↔
    index ≤ source.text.toList.count '\n'
  first : ∀ span ∈ source.lineRange? 0, span.start = 0
  consecutive (index : Nat) : ∀ span ∈ source.lineRange? index,
    ∀ next ∈ source.lineRange? (index + 1), span.stop = next.start
  last : ∀ span ∈ source.lineRange? (source.text.toList.count '\n'),
    span.stop = (utf8 source.text).length
  disjoint (index later : Nat) : index < later →
    ∀ span ∈ source.lineRange? index, ∀ other ∈ source.lineRange? later,
      span.start ≤ span.stop ∧ span.stop ≤ other.start
  covering : ∀ offset < (utf8 source.text).length, ∃! index,
    ∃ span ∈ source.lineRange? index,
      span.start ≤ offset ∧ offset < span.stop
  betweenCharacters (index : Nat) : ∀ span ∈ source.lineRange? index,
    String.Pos.Raw.IsValid source.text ⟨span.start⟩ ∧
      String.Pos.Raw.IsValid source.text ⟨span.stop⟩

theorem lineRange?_eq_some_iff {index : Nat} {span : Span} :
    source.lineRange? index = some span ↔ index < source.lines.length ∧
      span = ⟨reach source.lines index, reach source.lines (index + 1)⟩ := by
  rw [lineRange?_eq, Option.map_eq_some_iff]
  constructor
  · rintro ⟨line, stored, rfl⟩
    exact ⟨(List.getElem?_eq_some_iff.mp stored).1, rfl⟩
  · rintro ⟨inside, rfl⟩
    exact ⟨_, List.getElem?_eq_getElem inside, rfl⟩

theorem tiled (source : SourceFile) : source.Tiled where
  counted index := isSome_lineRange?_iff
  first := by
    intro span range
    obtain ⟨_, rfl⟩ := lineRange?_eq_some_iff.mp range
    rfl
  consecutive := by
    intro index span range next following
    obtain ⟨_, rfl⟩ := lineRange?_eq_some_iff.mp range
    obtain ⟨_, rfl⟩ := lineRange?_eq_some_iff.mp following
    rfl
  last := by
    intro span range
    obtain ⟨_, rfl⟩ := lineRange?_eq_some_iff.mp range
    rw [← reach_length, lines, length_splitLines]
  disjoint := by
    intro index later before span range other following
    obtain ⟨_, rfl⟩ := lineRange?_eq_some_iff.mp range
    obtain ⟨_, rfl⟩ := lineRange?_eq_some_iff.mp following
    exact ⟨reach_mono _ (Nat.le_succ index), reach_mono _ before⟩
  covering := by
    intro offset inside
    rw [← reach_length] at inside
    obtain ⟨index, ⟨below, around⟩, alone⟩ := existsUnique_piece inside
    refine ⟨index, ⟨_, lineRange?_eq_some_iff.mpr ⟨below, rfl⟩, around⟩, ?_⟩
    rintro other ⟨span, range, around⟩
    obtain ⟨below, rfl⟩ := lineRange?_eq_some_iff.mp range
    exact alone other ⟨below, around⟩
  betweenCharacters := by
    intro index span range
    obtain ⟨before, line, after, text, rfl, _⟩ := marksLine range
    simp only [String.Pos.Raw.isValid_iff_exists_append]
    refine ⟨⟨before, line ++ after, text, rfl⟩,
      ⟨before ++ line, after, ?_, ?_⟩⟩
    · rw [text, String.append_assoc]
    · rw [String.Pos.Raw.ext_iff, String.byteIdx_rawEndPos,
        String.utf8ByteSize_append]

end SourceFile

namespace Report

def HasLine (files : List SourceFile) (file number : Nat) : Prop :=
  ∃ source, files[file]? = some source ∧
    1 ≤ number ∧ number ≤ 1 + source.text.toList.count '\n'

variable {files : List SourceFile} {file : Nat} {diagnostic : Diagnostic}

/-- The label stands at the line of the diagnostic. -/
structure Points (files : List SourceFile) (file : Nat)
    (diagnostic : Diagnostic) (label : Label) : Prop where
  message : label.message = diagnostic.kind.message
  file : files[file]? = some label.file
  line : label.line = diagnostic.line
  range : label.file.lineRange? (diagnostic.line - 1) = some label.span
  marks : label.file.MarksLine diagnostic.line label.span

theorem label?_of_hasLine (has : HasLine files file diagnostic.line) :
    ∃ label, label? files file diagnostic = some label ∧
      Points files file diagnostic label := by
  obtain ⟨source, stored, positive, within⟩ := has
  obtain ⟨index, line⟩ := Nat.exists_eq_add_of_le' positive
  have inside : index ≤ source.text.toList.count '\n' := by omega
  obtain ⟨span, range⟩ :=
    Option.isSome_iff_exists.mp (SourceFile.isSome_lineRange?_iff.mpr inside)
  refine ⟨⟨source, diagnostic.line, span, diagnostic.kind.message⟩, ?_,
    rfl, stored, rfl, ?_, ?_⟩
  · simp [label?, stored, line, SourceFile.span?_succ, range]
  · rwa [line]
  · rw [line]
    exact SourceFile.marksLine range

theorem label?_of_not_hasLine (lacks : ¬HasLine files file diagnostic.line) :
    label? files file diagnostic = none := by
  cases stored : files[file]? with
  | none => simp [label?, stored]
  | some source =>
      cases line : diagnostic.line with
      | zero => simp [label?, stored, line, SourceFile.span?, SourceFile.atLine]
      | succ index =>
          have outside : source.lineRange? index = none := by
            rw [← Option.not_isSome_iff_eq_none,
              SourceFile.isSome_lineRange?_iff]
            intro inside
            exact lacks ⟨source, stored, by omega, by omega⟩
          simp [label?, stored, line, SourceFile.span?_succ, outside]

end Report

/-- A report labels the line of its diagnostic where one of the files has it,
and has a note with the whole record otherwise. -/
theorem reports_point_at_lines (files : List SourceFile) :
    (∀ (file : Nat) (diagnostic : Diagnostic),
      let report := Report.ofDiagnostic files file diagnostic
      ((∃ label, report.labels = [label] ∧
          label.message = diagnostic.kind.message) ↔
        Report.HasLine files file diagnostic.line) ∧
      (∀ label ∈ report.labels,
        report.notes = [] ∧ Report.Points files file diagnostic label) ∧
      (¬Report.HasLine files file diagnostic.line →
        report.labels = [] ∧ report.notes = [diagnostic.text]) ∧
      (report.severity = .bug ↔ diagnostic.category = .internal) ∧
      report.title = diagnostic.category.title) ∧
    ∀ source ∈ files, source.Tiled := by
  refine ⟨fun file diagnostic => ?_, fun source _ => source.tiled⟩
  have severe : (if diagnostic.isInternal then Severity.bug
      else Severity.error) = .bug ↔ diagnostic.category = .internal := by
    simp [Diagnostic.isInternal]
  by_cases has : Report.HasLine files file diagnostic.line
  · obtain ⟨label, labelled, points⟩ := Report.label?_of_hasLine has
    rw [Report.ofDiagnostic, labelled]
    refine ⟨iff_of_true ⟨label, rfl, points.message⟩ has, ?_,
      fun lacks => absurd has lacks, severe, rfl⟩
    intro other member
    rw [List.mem_singleton] at member
    subst member
    exact ⟨rfl, points⟩
  · rw [Report.ofDiagnostic, Report.label?_of_not_hasLine has]
    refine ⟨iff_of_false ?_ has, ?_, fun _ => ⟨rfl, rfl⟩, severe, rfl⟩
    · rintro ⟨label, labelled, _⟩
      cases labelled
    · intro label member
      cases member

def accented : SourceFile where
  name := "accented.cm"
  text := "é\nß"

theorem points_at_accented_line :
    (∃ label ∈ (Report.ofDiagnostic [accented] 0
        ⟨.undeclared, 2, some "ß"⟩).labels,
      label.span = ⟨3, 5⟩ ∧ accented.MarksLine 2 ⟨3, 5⟩) ∧
    (Report.ofDiagnostic [accented] 0 ⟨.undeclared, 3, some "ß"⟩).notes =
      ["Scope error at line(3), name=ß : identifier is not declared"] ∧
    accented.Tiled := by
  obtain ⟨reports, tiled⟩ := reports_point_at_lines [accented]
  obtain ⟨_, labelled, _⟩ := reports 0 ⟨.undeclared, 2, some "ß"⟩
  obtain ⟨_, _, noted, _⟩ := reports 0 ⟨.undeclared, 3, some "ß"⟩
  have label : (⟨accented, 2, ⟨3, 5⟩, "identifier is not declared"⟩ : Label) ∈
      (Report.ofDiagnostic [accented] 0 ⟨.undeclared, 2, some "ß"⟩).labels :=
    List.mem_cons_self
  have lacks : ¬Report.HasLine [accented] 0 3 := by
    rintro ⟨source, stored, _, within⟩
    cases stored
    exact absurd within (by decide)
  exact ⟨⟨_, label, rfl, (labelled _ label).2.marks⟩, (noted lacks).2,
    tiled accented List.mem_cons_self⟩

end CMinusAnalysis
