import CMinusAnalysis.Text.Utf8

namespace CMinusAnalysis

/-! Names are spread over a fixed number of buckets by reading their bytes as
the digits of a number in base sixteen, and taking the remainder at every
step. -/

def bucketCount : Nat := 211

def hashStep (sum : Nat) (byte : UInt8) : Nat :=
  (16 * sum + byte.toNat) % bucketCount

def bucketHash (name : String) : Nat :=
  (utf8 name).foldl hashStep 0

theorem hashStep_lt (sum : Nat) (byte : UInt8) :
    hashStep sum byte < bucketCount :=
  Nat.mod_lt _ (by decide)

theorem foldl_hashStep_lt (bytes : List UInt8) {sum : Nat}
    (bound : sum < bucketCount) : bytes.foldl hashStep sum < bucketCount := by
  induction bytes generalizing sum with
  | nil => exact bound
  | cons byte rest induction => exact induction (hashStep_lt sum byte)

theorem bucketHash_lt (name : String) : bucketHash name < bucketCount :=
  foldl_hashStep_lt (utf8 name) (by decide)

def bucketOf (name : String) : Fin bucketCount :=
  ⟨bucketHash name, bucketHash_lt name⟩

end CMinusAnalysis
