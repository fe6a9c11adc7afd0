import Mathlib.Data.List.Chain
import Mathlib.Data.List.Infix
import CMinusAnalysis.Text.Lines

namespace CMinusAnalysis

/-! Reading a text back. Where texts begin with leads that form a prefix code,
the lead tells them apart; a field reaches up to the next mark; and what may hold
anything at all is cut off at the last divider, if none can come after it. -/

def scanPast (letters : String) (text : List Char) : Option (List Char) :=
  letters.toList.isPrefixOf? text

theorem scanPast_append (letters : String) (rest : List Char) :
    scanPast letters (letters.toList ++ rest) = some rest :=
  List.isPrefixOf?_eq_some_iff_append_eq.mpr rfl

theorem prefix_of_scanPast {letters : String} {text rest : List Char}
    (fits : scanPast letters text = some rest) : letters.toList <+: text :=
  ⟨rest, List.isPrefixOf?_eq_some_iff_append_eq.mp fits⟩

/-- Readers, each with the lead that the texts for it begin with. -/
abbrev LeadTable (α : Type) := List (String × (List Char → Option α))

namespace LeadTable

/-- What the reader of a lead makes of the rest of a text. The first one counts
that makes anything of it. -/
def read (table : LeadTable α) (text : List Char) : Option α :=
  table.findSome? fun entry => (scanPast entry.1 text).bind entry.2

/-- No lead of the table begins another one. -/
def PrefixFree (table : LeadTable α) : Prop :=
  (table.map fun entry => entry.1.toList).Pairwise fun left right =>
    ¬ left <+: right ∧ ¬ right <+: left

theorem read_append {table : LeadTable α} (free : table.PrefixFree)
    {lead : String} {rest : List Char} {reader : List Char → Option α}
    {value : α} (listed : (lead, reader) ∈ table)
    (reads : reader rest = some value) :
    table.read (lead.toList ++ rest) = some value := by
  obtain ⟨before, after, rfl⟩ := List.append_of_mem listed
  rw [read, List.findSome?_eq_some_iff]
  refine ⟨before, (lead, reader), after, rfl, ?_, ?_⟩
  · rw [scanPast_append]
    exact reads
  · intro entry earlier
    rw [PrefixFree, List.map_append, List.pairwise_append] at free
    have apart := free.2.2 entry.1.toList (List.mem_map_of_mem earlier)
      lead.toList List.mem_cons_self
    rw [Option.bind_eq_none_iff]
    intro left fits
    rcases List.prefix_or_prefix_of_prefix (prefix_of_scanPast fits)
      (List.prefix_append lead.toList rest) with inside | inside
    · exact absurd inside apart.1
    · exact absurd inside apart.2

end LeadTable

def marks : List Char := [' ', ',', ':', '\'', ')', '\n']

def isMark (letter : Char) : Bool :=
  letter ∈ marks

theorem isMark_of_isDigit {letter : Char} (digit : letter.isDigit = true) :
    isMark letter = false := by
  have digitless : marks.all (!·.isDigit) = true := by decide
  rw [isMark, decide_eq_false_iff_not]
  intro listed
  have none := List.all_eq_true.mp digitless letter listed
  rw [digit] at none
  cases none

theorem unmarked_of_all {text : String}
    (all : text.toList.all (!isMark ·) = true) :
    ∀ letter ∈ text.toList, isMark letter = false := by
  simpa using all

/-- A way to show the values of a type without marks, and to read them back. -/
structure Field (α : Type) where
  shown : α → String
  read : List Char → Option α
  read_shown : ∀ value, read (shown value).toList = some value
  nonempty : ∀ value, (shown value).toList ≠ []
  unmarked : ∀ value, ∀ letter ∈ (shown value).toList, isMark letter = false

namespace Field

/-- Reads a field and passes the letters after it. -/
def scanTo (field : Field α) (stop : String) (text : List Char) :
    Option (α × List Char) := do
  let value ← field.read (text.takeWhile (!isMark ·))
  let rest ← scanPast stop (text.dropWhile (!isMark ·))
  return (value, rest)

theorem scanTo_append (field : Field α) (value : α) {stop : String}
    (marked : stop.toList.head?.any isMark = true) (rest : String) :
    field.scanTo stop (field.shown value ++ (stop ++ rest)).toList =
      some (value, rest.toList) := by
  have inside : ∀ letter ∈ (field.shown value).toList,
      (!isMark letter) = true := by
    intro letter member
    rw [field.unmarked value letter member]
    rfl
  have ends : (stop.toList ++ rest.toList).takeWhile (!isMark ·) = [] ∧
      (stop.toList ++ rest.toList).dropWhile (!isMark ·) =
        stop.toList ++ rest.toList := by
    cases letters : stop.toList with
    | nil =>
        rw [letters] at marked
        cases marked
    | cons mark tail =>
        rw [letters] at marked
        have here : isMark mark = true := marked
        simp [here]
  rw [scanTo, String.toList_append, String.toList_append,
    List.takeWhile_append_of_pos inside, List.dropWhile_append_of_pos inside,
    ends.1, ends.2, List.append_nil, field.read_shown, scanPast_append]
  rfl

end Field

def decimalField : Field Nat where
  shown := toString
  read := fun digits => some (Nat.ofDigitChars 10 digits 0)
  read_shown := by simp
  nonempty := by simp
  unmarked := by
    intro number letter member
    rw [Nat.toString_eq_ofList_toDigits, String.toList_ofList] at member
    exact isMark_of_isDigit
      (Nat.isDigit_of_mem_toDigits (by decide) (by decide) member)

def divider : List Char := [' ', ':', ' ']

/-- What stands before the last divider and after it. -/
def cutLast : List Char → Option (List Char × List Char)
  | [] => none
  | letter :: rest =>
      match cutLast rest with
      | some (front, back) => some (letter :: front, back)
      | none => (divider.isPrefixOf? (letter :: rest)).map ([], ·)

/-- Text on one line in which no blank stands before a colon. -/
structure Plain (text : List Char) : Prop where
  oneLine : '\n' ∉ text
  undivided : text.IsChain fun left right => ¬(left = ' ' ∧ right = ':')

instance (text : List Char) : Decidable (Plain text) :=
  decidable_of_iff
    ('\n' ∉ text ∧ text.IsChain fun left right => ¬(left = ' ' ∧ right = ':'))
    ⟨fun both => ⟨both.1, both.2⟩, fun plain => ⟨plain.1, plain.2⟩⟩

theorem Plain.splice {front back : List Char} (before : Plain front)
    (after : Plain back) (field : Field α) (value : α) :
    Plain (front ++ ((field.shown value).toList ++ back)) where
  oneLine := by
    have inside : '\n' ∉ (field.shown value).toList := by
      intro member
      exact absurd (field.unmarked value _ member) (by decide)
    simp [before.oneLine, inside, after.oneLine]
  undivided := by
    have unmarked := field.unmarked value
    have blankless : ∀ letter ∈ (field.shown value).toList, letter ≠ ' ' := by
      rintro letter member rfl
      exact absurd (unmarked _ member) (by decide)
    have starts : ((field.shown value).toList ++ back).head? =
        (field.shown value).toList.head? :=
      List.head?_append_of_ne_nil _ (field.nonempty value)
    rw [List.isChain_append, List.isChain_append]
    refine ⟨before.undivided, ⟨?_, after.undivided, ?_⟩, ?_⟩
    · apply List.Pairwise.isChain
      apply List.pairwise_of_forall_mem_list
      exact fun left member _ _ both => blankless left member both.1
    · intro left last right _ both
      exact blankless left (List.mem_of_mem_getLast? last) both.1
    · rintro left _ right first ⟨_, rfl⟩
      rw [starts] at first
      exact absurd (unmarked _ (List.mem_of_mem_head? first)) (by decide)

theorem Plain.append_field {front : List Char} (before : Plain front)
    (field : Field α) (value : α) :
    Plain (front ++ (field.shown value).toList) := by
  have spliced := before.splice (by decide : Plain []) field value
  rwa [List.append_nil] at spliced

theorem Plain.tail {letter : Char} {rest : List Char}
    (plain : Plain (letter :: rest)) : Plain rest where
  oneLine := fun member => plain.oneLine (List.mem_cons_of_mem _ member)
  undivided := plain.undivided.tail

theorem cutLast_eq_none {text : List Char} (plain : Plain text) :
    cutLast text = none := by
  induction text with
  | nil => rfl
  | cons letter rest induction =>
      rw [cutLast, induction plain.tail, Option.map_eq_none_iff]
      cases begins : divider.isPrefixOf? (letter :: rest) with
      | none => rfl
      | some back =>
          cases List.isPrefixOf?_eq_some_iff_append_eq.mp begins
          exact absurd ⟨rfl, rfl⟩
            (List.isChain_cons_cons.mp plain.undivided).1

theorem cutLast_append (front : List Char) {back : List Char}
    (plain : Plain (':' :: ' ' :: back)) :
    cutLast (front ++ (divider ++ back)) = some (front, back) := by
  induction front with
  | nil =>
      change cutLast (' ' :: ':' :: ' ' :: back) = some ([], back)
      rw [cutLast, cutLast_eq_none plain]
      rfl
  | cons letter front induction =>
      rw [List.cons_append, cutLast, induction]

end CMinusAnalysis
