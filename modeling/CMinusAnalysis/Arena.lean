namespace CMinusAnalysis

/-! Nodes, scopes and symbols live in arenas and are addressed by the position
at which they were added. A handle past the end of its arena addresses nothing,
and using one is a fault. -/

/-- The use of handle `index` on an arena of `length` entries. -/
structure Fault where
  length : Nat
  index : Nat
  deriving DecidableEq, Repr

namespace Fault

def message (fault : Fault) : String :=
  "index out of bounds: the len is " ++ toString fault.length ++
    " but the index is " ++ toString fault.index

end Fault

def fetch (entries : Array α) (index : Nat) : Except Fault α :=
  match entries[index]? with
  | some entry => .ok entry
  | none => .error ⟨entries.size, index⟩

theorem fetch_eq_ok_iff {entries : Array α} {index : Nat} {entry : α} :
    fetch entries index = .ok entry ↔ entries[index]? = some entry := by
  unfold fetch
  split <;> simp_all

theorem fetch_eq_error_iff {entries : Array α} {index : Nat} {fault : Fault} :
    fetch entries index = .error fault ↔
      entries.size ≤ index ∧ fault = ⟨entries.size, index⟩ := by
  unfold fetch
  split
  · next entry found =>
      have bound : index < entries.size :=
        (Array.getElem?_eq_some_iff.mp found).1
      simp
      omega
  · next missing =>
      have bound : entries.size ≤ index := Array.getElem?_eq_none_iff.mp missing
      simp [bound, eq_comm]

theorem fetch_of_lt {entries : Array α} {index : Nat}
    (bound : index < entries.size) :
    fetch entries index = .ok entries[index] := by
  simp [fetch_eq_ok_iff, bound]

end CMinusAnalysis
