import SmallScale.Proofs.Word.Value

namespace SmallScale
namespace Word

/-!
# Two's complement at every length

Numbers are written on any count of bits and read from at most 64 of them.
Writing goes on past the top of the number by repeating its sign, and reading
stops after 64 bits, so a reading of a written number is that of the number on
the lesser of the two counts.  The lengths from 1 to 64 then decide everything:
there the reading is the one number of the range that has the same remainder.

The numbers here are those of the host, of 64 bits with and without a sign.
A check that a number fits says of each of them, at every length, whether
writing and reading it gives it back.
-/

/-! ## Single bits -/

/-- A bit of a written number is the last bit of the number shifted down. -/
theorem getElem?_bitsOfInt {n index : Nat} (value : Int) (inside : index < n) :
    (bitsOfInt n value)[index]? = some (decide (value >>> index % 2 = 1)) := by
  induction n generalizing value index with
  | zero => omega
  | succ n ih =>
    cases index with
    | zero =>
      rw [bitsOfInt, List.getElem?_cons_zero, Int.shiftRight_zero]
    | succ index =>
      have shifted : (value / 2) >>> index = value >>> (index + 1) := by
        rw [Nat.add_comm, Int.shiftRight_add, Int.shiftRight_eq_div_pow value 1]
        rfl
      rw [bitsOfInt, List.getElem?_cons_succ, ih (value / 2) (by omega), shifted]

/-- Shifted by 63 places or more, a number of the host is its sign. -/
theorem shiftRight_of_bounds {value : Int} {count : Nat} (lower : -2 ^ 63 ≤ value)
    (upper : value < 2 ^ 63) (far : 63 ≤ count) :
    value >>> count = if value < 0 then -1 else 0 := by
  have wide : 2 ^ 63 ≤ 2 ^ count := Nat.pow_le_pow_right (by decide) far
  have positive : (0 : Int) < (2 ^ count : Nat) := by omega
  rw [Int.shiftRight_eq_div_pow]
  split
  · rename_i negative
    exact Int.ediv_eq_neg_one_of_neg_of_le negative (by omega)
  · exact Int.ediv_eq_zero_of_lt (by omega) (by omega)

/-- The bits of a number of the host go up to the 64th, which is repeated from
there on. -/
theorem bit?_ofInt {value : Int} {n index : Nat} (lower : -2 ^ 63 ≤ value)
    (upper : value < 2 ^ 63) (inside : index < n) :
    (ofInt value n).bit? index = some (decide (value >>> min index 63 % 2 = 1)) := by
  rw [bit?, ofInt, getElem?_bitsOfInt value inside]
  rcases Nat.lt_or_ge index 63 with below | above
  · rw [Nat.min_eq_left (by omega)]
  · rw [Nat.min_eq_right above, shiftRight_of_bounds lower upper above,
      shiftRight_of_bounds lower upper (Nat.le_refl 63)]

/-! ## What a reading sees -/

theorem take_bitsOfInt (count n : Nat) (value : Int) :
    (bitsOfInt n value).take count = bitsOfInt (min count n) value := by
  apply List.ext_getElem?
  intro index
  rw [List.getElem?_take]
  by_cases seen : index < min count n
  · rw [if_pos (by omega), getElem?_bitsOfInt value seen, getElem?_bitsOfInt value (by omega)]
  · have missing : (bitsOfInt (min count n) value)[index]? = none :=
      List.getElem?_eq_none (by rw [length_bitsOfInt]; omega)
    rw [missing]
    split
    · exact List.getElem?_eq_none (by rw [length_bitsOfInt]; omega)
    · rfl

/-- A reading of a written number sees it as written on at most 64 bits. -/
theorem readBits_ofInt (value : Int) (n : Nat) :
    (ofInt value n).readBits = (ofInt value (min 64 n)).readBits := by
  simp only [readBits, ofInt, take_bitsOfInt]
  congr 1
  omega

theorem unsigned_ofInt_min (value : Int) (n : Nat) :
    ((ofInt value n).unsigned : Int) = value % (2 ^ min 64 n : Nat) := by
  rw [unsigned, readBits_ofInt]
  exact unsigned_ofInt value (Nat.min_le_left 64 n)

theorem signed_ofInt_min (value : Int) (n : Nat) :
    (ofInt value n).signed = Int.bmod value (2 ^ min 64 n) := by
  rw [signed, readBits_ofInt]
  exact signed_ofInt value (Nat.min_le_left 64 n)

theorem unsigned_ofNat_min (value n : Nat) :
    (ofNat value n).unsigned = value % 2 ^ min 64 n := by
  have remainder := unsigned_ofInt_min value n
  rw [← Int.natCast_emod] at remainder
  exact Int.ofNat_inj.mp remainder

theorem ofNat_zero (n : Nat) : ofNat 0 n = zero n := by
  have clear : bitsOfInt n 0 = List.replicate n false := by
    induction n with
    | zero => rfl
    | succ n ih => exact congrArg (List.cons false) ih
  exact congrArg Word.mk clear

/-! ## Numbers with a sign -/

/-- The reading of a written number is the one number of the range that leaves
the same remainder. -/
theorem signed_ofInt_eq_iff {value reading : Int} {n : Nat} (positive : 1 ≤ n) (short : n ≤ 64) :
    (ofInt value n).signed = reading ↔
      (-2 ^ (n - 1) ≤ reading ∧ reading < 2 ^ (n - 1)) ∧ (2 ^ n : Int) ∣ reading - value := by
  have half : ((2 ^ (n - 1) : Nat) : Int) = 2 ^ (n - 1) := Int.natCast_pow 2 (n - 1)
  have whole : ((2 ^ n : Nat) : Int) = 2 ^ n := Int.natCast_pow 2 n
  have double : 2 ^ n = 2 * 2 ^ (n - 1) := by
    rw [Nat.mul_comm, ← Nat.pow_succ]
    congr 1
    omega
  rw [signed_ofInt value short, Int.bmod_eq_iff (Nat.two_pow_pos n), ← whole, and_assoc]
  refine and_congr (by omega) (and_congr (by omega) Iff.rfl)

/-- On 64 bits and more a number of the host is read as itself. -/
theorem signed_ofInt_of_wide {value : Int} {n : Nat} (lower : -2 ^ 63 ≤ value)
    (upper : value < 2 ^ 63) (wide : 64 ≤ n) : (ofInt value n).signed = value := by
  rw [signed_ofInt_min, Nat.min_eq_left wide]
  apply Int.bmod_eq_of_le_mul_two <;> omega

/-- The check for numbers with a sign tells, at every length, whether a number
of the host survives being written and read. -/
theorem fitsSigned_iff_survives {value : Int} (lower : -2 ^ 63 ≤ value) (upper : value < 2 ^ 63)
    (n : Nat) : fitsSigned value n = true ↔ (ofInt value n).signed = value := by
  rcases Nat.eq_zero_or_pos n with rfl | positive
  · have empty : (ofInt value 0).signed = 0 := rfl
    rw [empty, fitsSigned, if_pos rfl, beq_iff_eq]
    exact eq_comm
  · rcases Nat.lt_or_ge 64 n with wide | short
    · rw [signed_ofInt_of_wide lower upper (by omega), fitsSigned, if_neg (by omega)]
      simp only [decide_eq_true (Nat.le_of_lt wide), Bool.true_or]
    · rw [fitsSigned_iff positive short lower upper, signed_ofInt_eq_iff positive short,
        Int.sub_self]
      exact (and_iff_left (Int.dvd_zero _)).symm

/-! ## Numbers without a sign -/

theorem unsigned_ofNat_of_wide {value n : Nat} (upper : value < 2 ^ 64) (wide : 64 ≤ n) :
    (ofNat value n).unsigned = value := by
  rw [unsigned_ofNat_min, Nat.min_eq_left wide, Nat.mod_eq_of_lt upper]

theorem fitsUnsigned_iff_survives {value : Nat} (upper : value < 2 ^ 64) (n : Nat) :
    fitsUnsigned value n = true ↔ (ofNat value n).unsigned = value := by
  rcases Nat.lt_or_ge n 64 with short | wide
  · rw [fitsUnsigned_iff short, unsigned_ofNat value (Nat.le_of_lt short)]
    constructor
    · exact Nat.mod_eq_of_lt
    · intro survives
      rw [← survives]
      exact Nat.mod_lt _ (Nat.two_pow_pos n)
  · rw [unsigned_ofNat_of_wide upper wide, fitsUnsigned, decide_eq_true wide, Bool.true_or,
      eq_self, eq_self]

/-! ## Words -/

/-- The last bit is set exactly in the upper half of the numbers. -/
theorem getLast?_eq_true_iff (bits : List Bool) :
    bits.getLast? = some true ↔ ¬ 2 * valueOf bits < 2 ^ bits.length := by
  rcases List.eq_nil_or_concat bits with rfl | ⟨low, top, rfl⟩
  · decide
  · have bound := valueOf_lt_two_pow low
    rw [List.concat_eq_append, List.getLast?_concat, valueOf_append, List.length_append,
      List.length_singleton, Nat.pow_succ]
    cases top <;> simp [valueOf] <;> omega

theorem signBit_iff {w : Word} (short : w.length ≤ 64) :
    1 ≤ w.length ∧ w.bit? (w.length - 1) = some true ↔ ¬ 2 * w.unsigned < 2 ^ w.length := by
  rw [bit?, length, ← List.getLast?_eq_getElem?, getLast?_eq_true_iff, unsigned, readBits_eq short]
  apply and_iff_right_of_imp
  intro upperHalf
  apply Nat.one_le_iff_ne_zero.2
  intro empty
  rw [List.length_eq_zero_iff.1 empty] at upperHalf
  exact upperHalf (by decide)

/-- The two readings of a word differ by a whole turn if the sign bit is set,
and are the same otherwise. -/
theorem unsigned_sub_signed {w : Word} (short : w.length ≤ 64) :
    (w.unsigned : Int) - w.signed =
      if 1 ≤ w.length ∧ w.bit? (w.length - 1) = some true then 2 ^ w.length else 0 := by
  have whole : ((2 ^ w.length : Nat) : Int) = 2 ^ w.length := Int.natCast_pow 2 w.length
  have reading : w.signed =
      if 2 * w.unsigned < 2 ^ w.length then (w.unsigned : Int)
      else w.unsigned - (2 ^ w.length : Nat) := by
    rw [signed, unsigned, readBits_eq short]
    exact signedValueOf_eq w.bits
  simp only [signBit_iff short]
  rw [reading, ← whole]
  split <;> omega

/-- A word is read as negative exactly if its sign bit is set. -/
theorem signed_neg_iff {w : Word} (positive : 1 ≤ w.length) (short : w.length ≤ 64) :
    w.signed < 0 ↔ w.bit? (w.length - 1) = some true := by
  have bound := unsigned_lt_two_pow short
  have whole : ((2 ^ w.length : Nat) : Int) = 2 ^ w.length := Int.natCast_pow 2 w.length
  have difference := unsigned_sub_signed short
  split at difference
  · rename_i negative
    exact iff_of_true (by omega) negative.2
  · rename_i nonnegative
    exact iff_of_false (by omega) (fun set => nonnegative ⟨positive, set⟩)

/-! ## The codec -/

/-- What it is to write a number with a sign on `n` bits and to read it. -/
structure SignedCode (value : Int) (n : Nat) : Prop where
  length_eq : (ofInt value n).length = n
  bit_eq : ∀ index : Nat, index < n →
    (ofInt value n).bit? index = some (decide (value >>> min index 63 % 2 = 1))
  /-- From 1 to 64 bits the reading is the number of the range that is
  congruent to the one written, and no other number is. -/
  reading_iff : 1 ≤ n → n ≤ 64 → ∀ reading : Int, (ofInt value n).signed = reading ↔
    (-2 ^ (n - 1) ≤ reading ∧ reading < 2 ^ (n - 1)) ∧ (2 ^ n : Int) ∣ reading - value
  reading_of_wide : 64 ≤ n → (ofInt value n).signed = value
  /-- On more bits the sign is repeated. -/
  sign_eq : ∀ index : Nat, 63 ≤ index → index < n →
    (ofInt value n).bit? index = some (decide (value < 0))
  fits_iff : fitsSigned value n = true ↔ (ofInt value n).signed = value

/-- What it is to write a number without a sign on `n` bits and to read it. -/
structure UnsignedCode (value n : Nat) : Prop where
  length_eq : (ofNat value n).length = n
  reading_eq : 1 ≤ n → n ≤ 64 → (ofNat value n).unsigned = value % 2 ^ n
  reading_of_wide : 64 ≤ n → (ofNat value n).unsigned = value
  fits_iff : fitsUnsigned value n = true ↔ (ofNat value n).unsigned = value

/-- What it is to read a word and to write the number again. -/
structure ReadAndWritten (w : Word) : Prop where
  ofInt_eq : ofInt w.signed w.length = w
  ofNat_eq : ofNat w.unsigned w.length = w
  difference : (w.unsigned : Int) - w.signed =
    if 1 ≤ w.length ∧ w.bit? (w.length - 1) = some true then 2 ^ w.length else 0

theorem signedCode {value : Int} (lower : -2 ^ 63 ≤ value) (upper : value < 2 ^ 63) (n : Nat) :
    SignedCode value n where
  length_eq := length_ofInt value n
  bit_eq _ inside := bit?_ofInt lower upper inside
  reading_iff positive short _ := signed_ofInt_eq_iff positive short
  reading_of_wide wide := signed_ofInt_of_wide lower upper wide
  sign_eq index above inside := by
    rw [bit?_ofInt lower upper inside, Nat.min_eq_right above,
      shiftRight_of_bounds lower upper (Nat.le_refl 63)]
    by_cases negative : value < 0
    · rw [if_pos negative, decide_eq_true negative]
      rfl
    · rw [if_neg negative, decide_eq_false negative]
      rfl
  fits_iff := fitsSigned_iff_survives lower upper n

theorem unsignedCode {value : Nat} (upper : value < 2 ^ 64) (n : Nat) : UnsignedCode value n where
  length_eq := length_ofNat value n
  reading_eq _ short := unsigned_ofNat value short
  reading_of_wide wide := unsigned_ofNat_of_wide upper wide
  fits_iff := fitsUnsigned_iff_survives upper n

theorem readAndWritten {w : Word} (short : w.length ≤ 64) : ReadAndWritten w where
  ofInt_eq := ofInt_signed short
  ofNat_eq := ofNat_unsigned short
  difference := unsigned_sub_signed short

/-- The numbers of the host on any count of bits, with and without a sign, and
the words of at most 64 bits as numbers: two's complement in both
directions. -/
theorem twosComplement_both_ways :
    (∀ (value : Int64) (n : Nat), SignedCode value.toInt n) ∧
    (∀ (value : UInt64) (n : Nat), UnsignedCode value.toNat n) ∧
    (∀ w : Word, w.length ≤ 64 → ReadAndWritten w) := by
  refine ⟨?_, ?_, fun _ => readAndWritten⟩
  · intro value n
    exact signedCode value.le_toInt value.toInt_lt n
  · intro value n
    exact unsignedCode value.toNat_lt n

/-- Minus five does not fit three bits, where it is read as three.  On seventy
bits it is read as itself, and the last bit repeats its sign. -/
theorem twosComplement_both_ways_minusFive :
    (ofInt (-5) 3).signed = 3 ∧ fitsSigned (-5) 3 = false ∧ (ofInt (-5) 70).signed = -5 ∧
      (ofInt (-5) 70).bit? 69 = some true ∧ ReadAndWritten (ofInt (-5) 3) := by
  have minusFive : (-5 : Int64).toInt = -5 := by decide
  have codes := twosComplement_both_ways.1 (-5)
  rw [minusFive] at codes
  have onThree : (ofInt (-5) 3).signed = 3 :=
    ((codes 3).reading_iff (by decide) (by decide) 3).mpr (by decide)
  refine ⟨onThree, ?_, (codes 70).reading_of_wide (by decide),
    (codes 70).sign_eq 69 (by decide) (by decide), ?_⟩
  · apply Bool.eq_false_iff.mpr
    intro fits
    have survives := (codes 3).fits_iff.mp fits
    rw [onThree] at survives
    exact absurd survives (by decide)
  · exact twosComplement_both_ways.2.2 _ (by decide)

end Word
end SmallScale
