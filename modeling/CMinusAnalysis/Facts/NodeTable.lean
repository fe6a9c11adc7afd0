import CMinusAnalysis.Tree.Node

namespace CMinusAnalysis

/-! Tables keyed by node. A table has a slot for every node up to the last one
that it says something about, so it is determined by what it says about each
node. -/

structure NodeTable (α : Type u) where
  slots : Array (Option α) := #[]
  lastFilled : slots.back? ≠ some none := by simp

namespace NodeTable

def get? (table : NodeTable α) (key : NodeId) : Option α :=
  table.slots[key.index]?.join

def contains (table : NodeTable α) (key : NodeId) : Bool :=
  (table.get? key).isSome

/-- Fills the slot of a node, after as many empty ones as it takes to get
there. -/
def fill (slots : Array (Option α)) (index : Nat) (value : α) :
    Array (Option α) :=
  if index < slots.size then
    slots.setIfInBounds index (some value)
  else
    (slots ++ Array.replicate (index - slots.size) none).push (some value)

theorem back?_fill {slots : Array (Option α)}
    (lastFilled : slots.back? ≠ some none) (index : Nat) (value : α) :
    (fill slots index value).back? ≠ some none := by
  unfold fill
  split
  · rw [Array.back?_eq_getElem?] at lastFilled ⊢
    rw [Array.getElem?_setIfInBounds, Array.size_setIfInBounds]
    split
    · simp
    · exact lastFilled
  · simp

theorem getElem?_fill (slots : Array (Option α)) (index query : Nat)
    (value : α) :
    (fill slots index value)[query]?.join =
      if query = index then some value else slots[query]?.join := by
  unfold fill
  split
  · next inside =>
      rw [Array.getElem?_setIfInBounds]
      by_cases same : query = index
      · simp [same, inside]
      · simp [same, Ne.symm same]
  · next outside =>
      rw [Array.getElem?_push, Array.size_append, Array.size_replicate]
      have size : slots.size + (index - slots.size) = index := by omega
      rw [size]
      by_cases same : query = index
      · simp [same]
      · rw [if_neg same, if_neg same, Array.getElem?_append]
        split
        · rfl
        · next past =>
            rw [Array.getElem?_replicate, Array.getElem?_eq_none (by omega)]
            split <;> rfl

def insert (table : NodeTable α) (key : NodeId) (value : α) : NodeTable α :=
  ⟨fill table.slots key.index value,
    back?_fill table.lastFilled key.index value⟩

def size (table : NodeTable α) : Nat :=
  table.slots.countP Option.isSome

@[simp] theorem get?_empty (key : NodeId) :
    ({} : NodeTable α).get? key = none := rfl

theorem get?_insert (table : NodeTable α) (key query : NodeId) (value : α) :
    (table.insert key value).get? query =
      if query = key then some value else table.get? query := by
  rw [get?, insert, getElem?_fill]
  simp only [get?, NodeId.ext_iff]

private theorem size_le_of_agreement {left right : NodeTable α}
    (agreement : ∀ key, left.get? key = right.get? key) :
    right.slots.size ≤ left.slots.size := by
  apply Nat.le_of_not_lt
  intro larger
  have last := right.lastFilled
  rw [Array.back?_eq_getElem?] at last
  have agreed := agreement ⟨right.slots.size - 1⟩
  simp only [get?] at agreed
  rw [Array.getElem?_eq_none (by omega)] at agreed
  rw [Array.getElem?_eq_getElem (by omega)] at agreed last
  exact last (congrArg some agreed.symm)

theorem ext_get? {left right : NodeTable α}
    (agreement : ∀ key, left.get? key = right.get? key) : left = right := by
  have slots : left.slots = right.slots := by
    apply Array.ext
    · exact Nat.le_antisymm
        (size_le_of_agreement fun key => (agreement key).symm)
        (size_le_of_agreement agreement)
    · intro index inLeft inRight
      have agreed := agreement ⟨index⟩
      simp only [get?] at agreed
      rwa [Array.getElem?_eq_getElem inLeft,
        Array.getElem?_eq_getElem inRight] at agreed
  cases left
  cases right
  cases slots
  rfl

end NodeTable

end CMinusAnalysis
