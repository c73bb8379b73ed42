import Mathlib.Algebra.Group.Int.Defs
import Mathlib.Algebra.Group.Nat.Defs
import SmallScale.Word.Reading

namespace SmallScale
namespace Word

/-!
# The arithmetic of readings

Reading a word and writing a number are inverse up to a power of two.  On words
of at most 64 bits, where a reading sees every bit, the unsigned reading of a
written number is its remainder modulo `2 ^ n` and the signed reading is the
balanced remainder, the one between `-2 ^ (n - 1)` and `2 ^ (n - 1)`.  A field of
a word is a quotient and a remainder of its unsigned reading.

The numbers that bits spell are treated first, by induction on the bits.  The
readings of words follow without another induction.
-/

/-! ## Runs of bits -/

theorem valueOf_append (low high : List Bool) :
    valueOf (low ++ high) = valueOf low + 2 ^ low.length * valueOf high := by
  induction low with
  | nil => simp [valueOf]
  | cons bit rest ih =>
      simp only [List.cons_append, valueOf, ih, List.length_cons, Nat.pow_succ]
      grind

theorem valueOf_lt_two_pow (bits : List Bool) : valueOf bits < 2 ^ bits.length :=
  valueOf_lt bits

theorem valueOf_replicate_false (n : Nat) : valueOf (List.replicate n false) = 0 := by
  induction n with
  | zero => rfl
  | succ n ih => simp [List.replicate_succ, valueOf, ih]

/-- The bits below a position and those from it on add up to the whole. -/
theorem valueOf_take_add_drop (bits : List Bool) (n : Nat) :
    valueOf (bits.take n) + 2 ^ n * valueOf (bits.drop n) = valueOf bits := by
  by_cases inside : n ≤ bits.length
  · have parts := valueOf_append (bits.take n) (bits.drop n)
    rw [List.take_append_drop, List.length_take, Nat.min_eq_left inside] at parts
    exact parts.symm
  · rw [List.take_of_length_le (by omega), List.drop_eq_nil_of_le (by omega)]
    simp [valueOf]

theorem valueOf_take_lt (bits : List Bool) (n : Nat) : valueOf (bits.take n) < 2 ^ n := by
  have bound := valueOf_lt_two_pow (bits.take n)
  have short : (bits.take n).length ≤ n := by
    rw [List.length_take]
    exact Nat.min_le_left _ _
  exact Nat.lt_of_lt_of_le bound (Nat.pow_le_pow_right (by decide) short)

theorem valueOf_take (bits : List Bool) (n : Nat) :
    valueOf (bits.take n) = valueOf bits % 2 ^ n := by
  rw [← valueOf_take_add_drop bits n, Nat.add_mul_mod_self_left,
    Nat.mod_eq_of_lt (valueOf_take_lt bits n)]

theorem valueOf_drop (bits : List Bool) (n : Nat) :
    valueOf (bits.drop n) = valueOf bits / 2 ^ n := by
  rw [← valueOf_take_add_drop bits n, Nat.add_mul_div_left _ _ (Nat.two_pow_pos n),
    Nat.div_eq_of_lt (valueOf_take_lt bits n), Nat.zero_add]

/-- Runs of one length that spell the same number are the same run. -/
theorem valueOf_injective {first second : List Bool} (sameLength : first.length = second.length)
    (sameValue : valueOf first = valueOf second) : first = second := by
  induction first generalizing second with
  | nil => exact (List.eq_nil_of_length_eq_zero sameLength.symm).symm
  | cons bit rest ih =>
      cases second with
      | nil => cases sameLength
      | cons other others =>
          simp only [valueOf] at sameValue
          have firstSmall : bit.toNat ≤ 1 := Bool.toNat_le bit
          have secondSmall : other.toNat ≤ 1 := Bool.toNat_le other
          have sameBit : bit = other := by
            have sameNumber : bit.toNat = other.toNat := by omega
            revert sameNumber
            cases bit <;> cases other <;> decide
          have sameRest : rest = others := by
            apply ih (Nat.succ.inj sameLength)
            omega
          rw [sameBit, sameRest]

/-- A remainder modulo `2 * m` is a last bit and a remainder of the half. -/
theorem emod_two_mul (value : Int) {m : Nat} (positive : 0 < m) :
    value % (2 * m : Nat) = value % 2 + 2 * (value / 2 % m) := by
  have halves := Int.emod_add_mul_ediv value 2
  have quotients := Int.emod_add_mul_ediv (value / 2) m
  have split : value = (value % 2 + 2 * (value / 2 % m)) + (2 * m : Nat) * (value / 2 / m) := by
    have doubled : ((2 * m : Nat) : Int) * (value / 2 / m) = 2 * (m * (value / 2 / m)) := by
      rw [Int.natCast_mul, Int.mul_assoc]
      rfl
    omega
  have lower := Int.emod_nonneg (value / 2) (b := m) (by omega)
  have upper := Int.emod_lt_of_pos (value / 2) (b := m) (by omega)
  conv => lhs; rw [split]
  rw [Int.add_mul_emod_self_left]
  apply Int.emod_eq_of_lt <;> omega

/-- The bits written for an integer spell its remainder. -/
theorem valueOf_bitsOfInt (n : Nat) (value : Int) :
    (valueOf (bitsOfInt n value) : Int) = value % (2 ^ n : Nat) := by
  induction n generalizing value with
  | zero => simp [bitsOfInt, valueOf]
  | succ n ih =>
      have lowest : ((decide (value % 2 = 1)).toNat : Int) = value % 2 := by
        rcases Int.emod_two_eq value with even | odd
        · simp [even]
        · simp [odd]
      rw [Nat.pow_succ, Nat.mul_comm, emod_two_mul value (Nat.two_pow_pos n), ← ih, ← lowest,
        bitsOfInt, valueOf]
      simp

/-- The signed number of a run of bits: from half of `2 ^ n` on, `2 ^ n` is
taken off. -/
theorem signedValueOf_eq (bits : List Bool) :
    signedValueOf bits =
      if 2 * valueOf bits < 2 ^ bits.length then (valueOf bits : Int)
      else valueOf bits - (2 ^ bits.length : Nat) := by
  induction bits with
  | nil => rfl
  | cons bit rest ih =>
      cases rest with
      | nil => cases bit <;> rfl
      | cons next others =>
          have double : 2 ^ (next :: others).length = 2 * 2 ^ others.length := by
            rw [List.length_cons, Nat.pow_succ, Nat.mul_comm]
          have doubleAgain : 2 ^ (bit :: next :: others).length = 2 * 2 ^ (next :: others).length := by
            rw [List.length_cons, Nat.pow_succ, Nat.mul_comm]
          have small : bit.toNat ≤ 1 := Bool.toNat_le bit
          have sameBit : bit.toInt = bit.toNat := by cases bit <;> rfl
          have whole : valueOf (bit :: next :: others) =
              bit.toNat + 2 * valueOf (next :: others) := rfl
          rw [signedValueOf, ih, doubleAgain, sameBit, whole]
          · split <;> split <;> omega
          · simp

/-- The signed number of a run of bits is a balanced remainder. -/
theorem signedValueOf_eq_bmod (bits : List Bool) :
    signedValueOf bits = Int.bmod (valueOf bits) (2 ^ bits.length) := by
  have bound := valueOf_lt_two_pow bits
  rw [signedValueOf_eq, Int.bmod_def, Int.emod_eq_of_lt (by omega) (by omega)]
  cases bits with
  | nil => rfl
  | cons bit rest =>
      have double : 2 ^ (bit :: rest).length = 2 * 2 ^ rest.length := by
        rw [List.length_cons, Nat.pow_succ, Nat.mul_comm]
      rw [double]
      split <;> split <;> omega

/-! ## Words -/

/-- A reading sees all bits of a word that a machine can have. -/
theorem readBits_eq {w : Word} (short : w.length ≤ 64) : w.readBits = w.bits :=
  List.take_of_length_le short

theorem unsigned_lt_two_pow {w : Word} (short : w.length ≤ 64) : w.unsigned < 2 ^ w.length := by
  rw [unsigned, readBits_eq short]
  exact valueOf_lt_two_pow w.bits

theorem unsigned_injective {first second : Word} (sameLength : first.length = second.length)
    (short : first.length ≤ 64) (same : first.unsigned = second.unsigned) : first = second := by
  rw [unsigned, unsigned, readBits_eq short, readBits_eq (sameLength ▸ short)] at same
  cases first
  cases second
  exact congrArg Word.mk (valueOf_injective sameLength same)

theorem signed_eq_bmod {w : Word} (short : w.length ≤ 64) :
    w.signed = Int.bmod w.unsigned (2 ^ w.length) := by
  rw [signed, unsigned, readBits_eq short]
  exact signedValueOf_eq_bmod w.bits

/-- The signed number of a word lies in the range of its length. -/
theorem signed_bounds {w : Word} (positive : 0 < w.length) (short : w.length ≤ 64) :
    -2 ^ (w.length - 1) ≤ w.signed ∧ w.signed < 2 ^ (w.length - 1) := by
  have half : ((2 ^ (w.length - 1) : Nat) : Int) = 2 ^ (w.length - 1) :=
    Int.natCast_pow 2 (w.length - 1)
  have double : 2 ^ w.length = 2 * 2 ^ (w.length - 1) := by
    rw [Nat.mul_comm, ← Nat.pow_succ]
    congr 1
    omega
  have lower := Int.le_bmod (x := w.unsigned) (Nat.two_pow_pos w.length)
  have upper := Int.bmod_lt (x := w.unsigned) (Nat.two_pow_pos w.length)
  rw [← signed_eq_bmod short, double] at lower upper
  omega
theorem unsigned_eq_emod {w : Word} (short : w.length ≤ 64) :
    (w.unsigned : Int) = w.signed % (2 ^ w.length : Nat) := by
  have bound := unsigned_lt_two_pow short
  rw [signed_eq_bmod short, Int.bmod_emod, Int.emod_eq_of_lt (by omega) (by omega)]

theorem signed_injective {first second : Word} (sameLength : first.length = second.length)
    (short : first.length ≤ 64) (same : first.signed = second.signed) : first = second := by
  apply unsigned_injective sameLength short
  have firstValue := unsigned_eq_emod short
  have secondValue := unsigned_eq_emod (w := second) (sameLength ▸ short)
  rw [← sameLength, ← same, ← firstValue] at secondValue
  omega

@[simp] theorem unsigned_zero (n : Nat) : (zero n).unsigned = 0 := by
  rw [unsigned, readBits, zero, List.take_replicate]
  exact valueOf_replicate_false _

theorem signed_zero {n : Nat} (short : n ≤ 64) : (zero n).signed = 0 := by
  rw [signed_eq_bmod (by rwa [length_zero]), unsigned_zero]
  exact Int.zero_bmod

/-- A written number reads as its remainder. -/
theorem unsigned_ofInt (value : Int) {n : Nat} (short : n ≤ 64) :
    ((ofInt value n).unsigned : Int) = value % (2 ^ n : Nat) := by
  have short' : (ofInt value n).length ≤ 64 := by rwa [length_ofInt]
  rw [unsigned, readBits_eq short']
  exact valueOf_bitsOfInt n value

theorem unsigned_ofNat (value : Nat) {n : Nat} (short : n ≤ 64) :
    (ofNat value n).unsigned = value % 2 ^ n := by
  have remainder := unsigned_ofInt value short
  rw [← Int.natCast_emod] at remainder
  exact Int.ofNat_inj.mp remainder

/-- A word is what its number is written as. -/
theorem ofNat_unsigned {w : Word} (short : w.length ≤ 64) : ofNat w.unsigned w.length = w := by
  apply unsigned_injective (length_ofNat _ _) (by rwa [length_ofNat])
  rw [unsigned_ofNat _ short, Nat.mod_eq_of_lt (unsigned_lt_two_pow short)]

/-- A written number reads as its balanced remainder under the sign. -/
theorem signed_ofInt (value : Int) {n : Nat} (short : n ≤ 64) :
    (ofInt value n).signed = Int.bmod value (2 ^ n) := by
  have short' : (ofInt value n).length ≤ 64 := by rwa [length_ofInt]
  rw [signed_eq_bmod short', unsigned_ofInt value short, length_ofInt, Int.emod_bmod]

/-- A word is what its signed number is written as. -/
theorem ofInt_signed {w : Word} (short : w.length ≤ 64) : ofInt w.signed w.length = w := by
  apply signed_injective (length_ofInt _ _) (by rwa [length_ofInt])
  rw [signed_ofInt _ short, signed_eq_bmod short, Int.bmod_bmod]

/-- A run of bits inside a word is a quotient and a remainder of its number. -/
theorem unsigned_extract {w : Word} (short : w.length ≤ 64) (start count : Nat) :
    (w.extract start count).unsigned = w.unsigned / 2 ^ start % 2 ^ count := by
  have short' : (w.extract start count).length ≤ 64 := by
    simp only [length, extract, List.length_take, List.length_drop] at short ⊢
    omega
  rw [unsigned, unsigned, readBits_eq short, readBits_eq short', extract, valueOf_take,
    valueOf_drop]

/-! ## Numbers that fit -/

theorem fitsUnsigned_iff {value n : Nat} (short : n < 64) :
    fitsUnsigned value n = true ↔ value < 2 ^ n := by
  rw [fitsUnsigned, decide_eq_false (Nat.not_le_of_lt short), Bool.false_or, decide_eq_true_eq]
  rfl

/-- A 64-bit number fits a word as a signed number exactly when it lies between
the lowest and the highest number of the word. -/
theorem fitsSigned_iff {value : Int} {n : Nat} (positive : 1 ≤ n) (short : n ≤ 64)
    (lower : -2 ^ 63 ≤ value) (upper : value < 2 ^ 63) :
    fitsSigned value n = true ↔ -2 ^ (n - 1) ≤ value ∧ value < 2 ^ (n - 1) := by
  have half : ((Nat.pow 2 (n - 1) : Nat) : Int) = 2 ^ (n - 1) := Int.natCast_pow 2 (n - 1)
  simp only [fitsSigned, if_neg (Nat.ne_of_gt positive), Bool.or_eq_true, Bool.and_eq_true,
    decide_eq_true_eq, half]
  constructor
  · intro fits
    rcases fits with full | between
    · have isFull : n = 64 := Nat.le_antisymm short full
      subst isFull
      exact ⟨lower, upper⟩
    · exact between
  · intro between
    exact Or.inr between

/-- A number that fits survives being written and read. -/
theorem signed_ofInt_of_fits {value : Int} {n : Nat} (positive : 1 ≤ n) (short : n ≤ 64)
    (lower : -2 ^ (n - 1) ≤ value) (upper : value < 2 ^ (n - 1)) :
    (ofInt value n).signed = value := by
  have half : ((2 ^ (n - 1) : Nat) : Int) = 2 ^ (n - 1) := Int.natCast_pow 2 (n - 1)
  have double : 2 ^ n = 2 * 2 ^ (n - 1) := by
    rw [Nat.mul_comm, ← Nat.pow_succ]
    congr 1
    omega
  rw [signed_ofInt value short]
  apply Int.bmod_eq_of_le_mul_two <;> omega

end Word
end SmallScale
