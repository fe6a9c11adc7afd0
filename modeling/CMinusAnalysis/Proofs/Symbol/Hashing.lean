import Mathlib.Algebra.BigOperators.Fin
import Mathlib.Algebra.Field.ZMod
import Mathlib.GroupTheory.OrderOfElement
import Mathlib.Tactic.NormNum.Prime
import Mathlib.Tactic.Ring
import CMinusAnalysis.Symbol.Bucket

namespace CMinusAnalysis

/-! How names are spread over the buckets. The bytes of a name are the digits of
a number in base sixteen, and the bucket is its remainder. Sixteen has order 105
modulo the number of buckets, so two different letters that change places move a
name to another bucket, unless their distance is a multiple of 105. -/

/-- The number that bytes denote as digits in base sixteen, the first with the
highest power. A byte may exceed the base. -/
def placeValue (bytes : List UInt8) : Nat :=
  ∑ index : Fin bytes.length,
    bytes[index].toNat * 16 ^ (bytes.length - 1 - index)

theorem placeValue_nil : placeValue [] = 0 := rfl

theorem placeValue_cons (byte : UInt8) (bytes : List UInt8) :
    placeValue (byte :: bytes) =
      byte.toNat * 16 ^ bytes.length + placeValue bytes := by
  have split := Fin.sum_univ_succ fun index : Fin (bytes.length + 1) =>
    (byte :: bytes)[index].toNat * 16 ^ (bytes.length - index)
  simpa [placeValue, Nat.sub_sub, Nat.add_comm] using split

theorem placeValue_append (left right : List UInt8) :
    placeValue (left ++ right) =
      placeValue left * 16 ^ right.length + placeValue right := by
  induction left with
  | nil => simp [placeValue_nil]
  | cons byte left induction =>
      rw [List.cons_append, placeValue_cons, placeValue_cons, induction,
        List.length_append]
      ring

theorem hashStep_modEq (sum : Nat) (byte : UInt8) :
    hashStep sum byte ≡ 16 * sum + byte.toNat [MOD bucketCount] :=
  Nat.mod_modEq _ _

theorem foldl_hashStep_modEq (bytes : List UInt8) (sum : Nat) :
    bytes.foldl hashStep sum ≡
      sum * 16 ^ bytes.length + placeValue bytes [MOD bucketCount] := by
  induction bytes generalizing sum with
  | nil => simp [placeValue_nil, Nat.ModEq]
  | cons byte bytes induction =>
      calc (byte :: bytes).foldl hashStep sum
          ≡ hashStep sum byte * 16 ^ bytes.length + placeValue bytes
            [MOD bucketCount] := induction (hashStep sum byte)
        _ ≡ (16 * sum + byte.toNat) * 16 ^ bytes.length + placeValue bytes
            [MOD bucketCount] :=
          ((hashStep_modEq sum byte).mul_right _).add_right _
        _ = sum * 16 ^ (byte :: bytes).length + placeValue (byte :: bytes) := by
          rw [placeValue_cons, List.length_cons]
          ring

theorem bucketHash_modEq (name : String) :
    bucketHash name ≡ placeValue (utf8 name) [MOD bucketCount] := by
  simpa [bucketHash] using foldl_hashStep_modEq (utf8 name) 0

theorem bucketHash_eq (name : String) :
    bucketHash name = placeValue (utf8 name) % bucketCount := by
  rw [← bucketHash_modEq name, Nat.mod_eq_of_lt (bucketHash_lt name)]

theorem bucketHash_append (left right : String) :
    bucketHash (left ++ right) =
      (bucketHash left * 16 ^ (utf8 right).length + bucketHash right) %
        bucketCount := by
  rw [bucketHash_eq, utf8_append, placeValue_append]
  exact ((bucketHash_modEq left).symm.mul_right _).add
    (bucketHash_modEq right).symm

theorem unreduced_le {sum : Nat} (bound : sum < bucketCount) (byte : UInt8) :
    16 * sum + byte.toNat ≤ 3615 := by
  have digit : byte.toNat < 256 := byte.toNat_lt
  unfold bucketCount at bound
  omega

/-- A step in words, with a shift for the multiplication. Both the shift and the
addition drop what does not fit. -/
def wordStep {width : Nat} (sum : BitVec width) (byte : UInt8) :
    BitVec width :=
  (sum <<< 4 + BitVec.ofNat width byte.toNat) % BitVec.ofNat width bucketCount

theorem toNat_wordStep {width : Nat} (wide : 12 ≤ width) {word : BitVec width}
    (bound : word.toNat < bucketCount) (byte : UInt8) :
    (wordStep word byte).toNat = hashStep word.toNat byte := by
  have room : 2 ^ 12 ≤ 2 ^ width := Nat.pow_le_pow_right (by decide) wide
  have small := unreduced_le bound byte
  have fits (value : Nat) (below : value ≤ 3615) :
      value % 2 ^ width = value := Nat.mod_eq_of_lt (by omega)
  rw [wordStep, BitVec.toNat_umod, BitVec.toNat_add, BitVec.toNat_shiftLeft,
    BitVec.toNat_ofNat, BitVec.toNat_ofNat, Nat.shiftLeft_eq,
    fits (word.toNat * 2 ^ 4) (by omega), fits byte.toNat (by omega),
    fits bucketCount (by decide), fits _ (by omega), hashStep, Nat.mul_comm]

theorem toNat_foldl_wordStep {width : Nat} (wide : 12 ≤ width)
    (bytes : List UInt8) {word : BitVec width}
    (bound : word.toNat < bucketCount) :
    (bytes.foldl wordStep word).toNat = bytes.foldl hashStep word.toNat := by
  induction bytes generalizing word with
  | nil => rfl
  | cons byte bytes induction =>
      have step := toNat_wordStep wide bound byte
      rw [List.foldl_cons, List.foldl_cons, ← step]
      apply induction
      rw [step]
      exact hashStep_lt word.toNat byte

theorem toNat_wordHash {width : Nat} (wide : 12 ≤ width) (name : String) :
    ((utf8 name).foldl wordStep (BitVec.ofNat width 0)).toNat =
      bucketHash name := by
  have start : (BitVec.ofNat width 0).toNat < bucketCount := by
    rw [BitVec.toNat_zero]
    decide
  rw [toNat_foldl_wordStep wide _ start, BitVec.toNat_zero, bucketHash]

instance bucketCount_prime : Fact (Nat.Prime bucketCount) :=
  ⟨by norm_num [bucketCount]⟩

theorem pow_sixteen_eq_one_iff (power : Nat) :
    (16 : ZMod bucketCount) ^ power = 1 ↔ 16 ^ power % bucketCount = 1 := by
  have cast := ZMod.natCast_eq_natCast_iff' (16 ^ power) 1 bucketCount
  rwa [Nat.cast_pow, Nat.cast_ofNat, Nat.cast_one] at cast

theorem orderOf_sixteen : orderOf (16 : ZMod bucketCount) = 105 := by
  apply orderOf_eq_of_pow_and_pow_div_prime (by decide)
  · exact (pow_sixteen_eq_one_iff 105).mpr (by decide)
  · intro divisor prime divides one
    rw [pow_sixteen_eq_one_iff] at one
    rw [show 105 = 3 * 5 * 7 from rfl, prime.dvd_mul, prime.dvd_mul,
      Nat.prime_dvd_prime_iff_eq prime (by norm_num),
      Nat.prime_dvd_prime_iff_eq prime (by norm_num),
      Nat.prime_dvd_prime_iff_eq prime (by norm_num)] at divides
    obtain (rfl | rfl) | rfl := divides <;> exact absurd one (by decide)

theorem sixteen_ne_zero : (16 : ZMod bucketCount) ≠ 0 := by
  have one := orderOf_sixteen ▸ pow_orderOf_eq_one (16 : ZMod bucketCount)
  exact (IsUnit.of_pow_eq_one one (by decide)).ne_zero

theorem sub_natCast_ne_zero {left right : Nat} (different : left ≠ right)
    (leftLow : left < bucketCount) (rightLow : right < bucketCount) :
    (left : ZMod bucketCount) - (right : ZMod bucketCount) ≠ 0 := by
  rw [sub_ne_zero, Ne, ZMod.natCast_eq_natCast_iff',
    Nat.mod_eq_of_lt leftLow, Nat.mod_eq_of_lt rightLow]
  exact different

theorem placeValue_exchange (front middle back : List UInt8)
    (first second : UInt8) :
    (placeValue (front ++ second :: (middle ++ first :: back)) :
        ZMod bucketCount) -
      (placeValue (front ++ first :: (middle ++ second :: back)) :
        ZMod bucketCount) =
    ((second.toNat : ZMod bucketCount) - (first.toNat : ZMod bucketCount)) *
      16 ^ back.length * (16 ^ (middle.length + 1) - 1) := by
  simp only [placeValue_append, placeValue_cons, List.length_append,
    List.length_cons, Nat.cast_add, Nat.cast_mul, Nat.cast_pow,
    Nat.cast_ofNat]
  ring

theorem exchange_modEq_iff (front middle back : List UInt8)
    {first second : UInt8} (different : first ≠ second)
    (firstLow : first.toNat < bucketCount)
    (secondLow : second.toNat < bucketCount) :
    placeValue (front ++ second :: (middle ++ first :: back)) ≡
      placeValue (front ++ first :: (middle ++ second :: back))
      [MOD bucketCount] ↔ 105 ∣ middle.length + 1 := by
  have digits : (second.toNat : ZMod bucketCount) -
      (first.toNat : ZMod bucketCount) ≠ 0 :=
    sub_natCast_ne_zero (fun same => different (UInt8.toNat_inj.mp same).symm)
      secondLow firstLow
  have power : (16 : ZMod bucketCount) ^ back.length ≠ 0 :=
    pow_ne_zero _ sixteen_ne_zero
  -- Modulo a prime, the difference vanishes only if its last factor does.
  rw [← ZMod.natCast_eq_natCast_iff, ← sub_eq_zero, placeValue_exchange,
    mul_eq_zero, or_iff_right (mul_ne_zero digits power), sub_eq_zero,
    ← orderOf_dvd_iff_pow_eq_one, orderOf_sixteen]

theorem utf8EncodeChar_ascii {letter : Char} (ascii : letter.toNat < 128) :
    String.utf8EncodeChar letter = [UInt8.ofNat letter.toNat] := by
  have small : letter.val.toNat ≤ 127 := Nat.lt_succ_iff.mp ascii
  rw [String.utf8EncodeChar, if_pos small]
  rfl

theorem toNat_byte_ascii {letter : Char} (ascii : letter.toNat < 128) :
    (UInt8.ofNat letter.toNat).toNat = letter.toNat :=
  UInt8.toNat_ofNat_of_lt' (Nat.lt_trans ascii (by decide))

theorem length_flatMap_ascii {letters : List Char}
    (ascii : ∀ letter ∈ letters, letter.toNat < 128) :
    (letters.flatMap String.utf8EncodeChar).length = letters.length := by
  induction letters with
  | nil => rfl
  | cons letter letters induction =>
      obtain ⟨first, rest⟩ := List.forall_mem_cons.mp ascii
      simp [utf8EncodeChar_ascii first, induction rest]

theorem exists_cut {list : List α} {index : Nat} {entry : α}
    (held : list[index]? = some entry) :
    ∃ front back, list = front ++ entry :: back ∧ front.length = index := by
  obtain ⟨inside, rfl⟩ := List.getElem?_eq_some_iff.mp held
  refine ⟨list.take index, list.drop (index + 1), ?_, ?_⟩
  · rw [List.cons_getElem_drop_succ, List.take_append_drop]
  · exact List.length_take_of_le (Nat.le_of_lt inside)

theorem exists_exchange {list : List α} {i j : Nat} {first second : α}
    (before : i < j) (atFirst : list[i]? = some first)
    (atSecond : list[j]? = some second) :
    ∃ front middle back, list = front ++ first :: (middle ++ second :: back) ∧
      (list.set i second).set j first =
        front ++ second :: (middle ++ first :: back) ∧
      middle.length + 1 = j - i := by
  obtain ⟨front, rest, rfl, rfl⟩ := exists_cut atFirst
  obtain ⟨distance, rfl⟩ := Nat.exists_eq_add_of_lt before
  have inRest : rest[distance]? = some second := by
    rw [List.getElem?_append_right (by omega)] at atSecond
    simpa [Nat.add_assoc] using atSecond
  obtain ⟨middle, back, rfl, rfl⟩ := exists_cut inRest
  refine ⟨front, middle, back, rfl, ?_, by omega⟩
  simp [Nat.add_assoc]

/-- The name with the letter `second` at position `i` and `first` at `j`. -/
def exchanged (name : String) (i j : Nat) (first second : Char) : String :=
  String.ofList ((name.toList.set i second).set j first)

theorem bucketHash_exchanged_iff {name : String}
    (ascii : ∀ letter ∈ name.toList, letter.toNat < 128) {i j : Nat}
    {first second : Char} (before : i < j)
    (atFirst : name.toList[i]? = some first)
    (atSecond : name.toList[j]? = some second) (different : first ≠ second) :
    bucketHash (exchanged name i j first second) = bucketHash name ↔
      105 ∣ j - i := by
  obtain ⟨front, middle, back, split, exchange, distance⟩ :=
    exists_exchange before atFirst atSecond
  have firstLow := ascii first (List.mem_of_getElem? atFirst)
  have secondLow := ascii second (List.mem_of_getElem? atSecond)
  have between : ∀ letter ∈ middle, letter.toNat < 128 := by
    intro letter member
    apply ascii
    simp [split, member]
  have bytes : UInt8.ofNat first.toNat ≠ UInt8.ofNat second.toNat := by
    intro same
    apply different
    have codes := congrArg UInt8.toNat same
    rw [toNat_byte_ascii firstLow, toNat_byte_ascii secondLow] at codes
    exact Char.toNat_inj.mp codes
  have below {letter : Char} (low : letter.toNat < 128) :
      (UInt8.ofNat letter.toNat).toNat < bucketCount := by
    rw [toNat_byte_ascii low]
    exact Nat.lt_trans low (by decide)
  rw [bucketHash_eq, bucketHash_eq, exchanged, exchange, utf8, utf8, split]
  simp only [String.toList_ofList, List.flatMap_append, List.flatMap_cons,
    utf8EncodeChar_ascii firstLow, utf8EncodeChar_ascii secondLow,
    List.singleton_append]
  rw [← distance, ← length_flatMap_ascii between]
  exact exchange_modEq_iff _ _ _ bytes (below firstLow) (below secondLow)

/-- The bucket of a name is the remainder of the number that its bytes denote in
base sixteen. No step has more than 3615 to reduce, so that words of twelve bits
never overflow. The bucket of two names joined follows from theirs and the
length of the second. In an ASCII name, two different letters that change places
leave the bucket alone just when their distance is a multiple of 105. -/
theorem names_spread_as_numerals (name : String) :
    bucketHash name = placeValue (utf8 name) % 211 ∧
    bucketHash name < bucketCount ∧
    (∀ front byte back, utf8 name = front ++ byte :: back →
      16 * front.foldl hashStep 0 + byte.toNat ≤ 3615) ∧
    (∀ width, 12 ≤ width →
      ((utf8 name).foldl wordStep (BitVec.ofNat width 0)).toNat =
        bucketHash name) ∧
    (∀ other, bucketHash (name ++ other) =
      (bucketHash name * 16 ^ (utf8 other).length + bucketHash other) % 211) ∧
    ((∀ letter ∈ name.toList, letter.toNat < 128) →
      ∀ (i j : Nat) (first second : Char), i < j →
        name.toList[i]? = some first → name.toList[j]? = some second →
        first ≠ second →
        (bucketHash (exchanged name i j first second) = bucketHash name ↔
          105 ∣ j - i) ∧
        (j - i < 105 →
          bucketHash (exchanged name i j first second) ≠ bucketHash name)) := by
  refine ⟨bucketHash_eq name, bucketHash_lt name, ?_, ?_,
    bucketHash_append name, ?_⟩
  · intro front byte back _
    exact unreduced_le (foldl_hashStep_lt front (by decide)) byte
  · intro width wide
    exact toNat_wordHash wide name
  · intro ascii i j first second before atFirst atSecond different
    have unchanged := bucketHash_exchanged_iff ascii before atFirst atSecond
      different
    refine ⟨unchanged, fun near same => ?_⟩
    have multiple := Nat.le_of_dvd (by omega) (unchanged.mp same)
    omega

def farLetters : String :=
  String.ofList ('a' :: (List.replicate 104 '_' ++ ['b']))

theorem spread_of_far_letters :
    (∀ letter ∈ farLetters.toList, letter.toNat < 128) ∧
    farLetters.toList[0]? = some 'a' ∧ farLetters.toList[105]? = some 'b' ∧
    bucketHash (exchanged farLetters 0 105 'a' 'b') = bucketHash farLetters ∧
    ((utf8 farLetters).foldl wordStep (BitVec.ofNat 16 0)).toNat =
      bucketHash farLetters ∧
    bucketHash (exchanged "ab" 0 1 'a' 'b') ≠ bucketHash "ab" := by
  obtain ⟨_, _, _, words, _, far⟩ := names_spread_as_numerals farLetters
  obtain ⟨_, _, _, _, _, near⟩ := names_spread_as_numerals "ab"
  have ascii {name : String}
      (all : name.toList.all (decide <| ·.toNat < 128) = true) :
      ∀ letter ∈ name.toList, letter.toNat < 128 := by
    simpa using all
  have farAscii : ∀ letter ∈ farLetters.toList, letter.toNat < 128 :=
    ascii (by decide)
  have atFirst : farLetters.toList[0]? = some 'a' := by decide
  have atSecond : farLetters.toList[105]? = some 'b' := by decide
  have different : 'a' ≠ 'b' := by decide
  refine ⟨farAscii, atFirst, atSecond, ?_, words 16 (by decide), ?_⟩
  · exact (far farAscii 0 105 'a' 'b' (by decide) atFirst atSecond
      different).1.mpr (by decide)
  · exact (near (ascii (by decide)) 0 1 'a' 'b' (by decide) (by decide)
      (by decide) different).2 (by decide)

end CMinusAnalysis
