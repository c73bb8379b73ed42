import SmallScale.Word

namespace SmallScale
namespace Word

/-!
# Words as numbers

A word is read as an unsigned number or in two's complement, where the last
bit carries the sign.  No machine has words of more than 64 bits; a longer word
is read from its first 64 bits.  In the other direction a number is written on
any number of bits: what does not fit is cut off, and a wider word repeats the
sign.
-/

/-- The number that a run of bits spells, bit 0 first. -/
def valueOf : List Bool → Nat
  | [] => 0
  | bit :: rest => bit.toNat + 2 * valueOf rest

/-- The bits that a reading looks at. -/
def readBits (w : Word) : List Bool :=
  w.bits.take 64

/-- The word as an unsigned number. -/
def unsigned (w : Word) : Nat :=
  valueOf w.readBits

/-- The two's-complement reading of a run of bits: the last bit counts
negatively. -/
def signedValueOf : List Bool → Int
  | [] => 0
  | [sign] => -sign.toInt
  | bit :: rest => bit.toInt + 2 * signedValueOf rest

/-- The word as a two's-complement number. -/
def signed (w : Word) : Int :=
  signedValueOf w.readBits

/-- The lowest bits of a number in two's complement. -/
def bitsOfInt : Nat → Int → List Bool
  | 0, _ => []
  | n + 1, value => decide (value % 2 = 1) :: bitsOfInt n (value / 2)

/-- A number on `n` bits: its value modulo `2 ^ n`, in two's complement. -/
def ofInt (value : Int) (n : Nat) : Word :=
  ⟨bitsOfInt n value⟩

/-- A natural number on `n` bits: its value modulo `2 ^ n`. -/
def ofNat (value n : Nat) : Word :=
  ofInt value n

/-- The number survives being written on `n` bits and read as signed. -/
def fitsSigned (value : Int) (n : Nat) : Bool :=
  if n = 0 then value == 0
  else
    let half : Int := Nat.pow 2 (n - 1)
    64 ≤ n || (decide (-half ≤ value) && decide (value < half))

/-- The number survives being written on `n` bits and read as unsigned. -/
def fitsUnsigned (value n : Nat) : Bool :=
  64 ≤ n || decide (value < Nat.pow 2 n)

/-- A run of `n` bits spells a number below `2 ^ n`. -/
theorem valueOf_lt (bits : List Bool) : valueOf bits < Nat.pow 2 bits.length := by
  induction bits with
  | nil => decide
  | cons bit rest ih =>
      have small : bit.toNat ≤ 1 := by cases bit <;> decide
      have double : Nat.pow 2 (rest.length + 1) = Nat.pow 2 rest.length * 2 := rfl
      simp only [valueOf, List.length_cons, double]
      omega

/-- Every unsigned reading is a 64-bit number. -/
theorem unsigned_lt (w : Word) : w.unsigned < UInt64.size := by
  have bound := valueOf_lt w.readBits
  have short : w.readBits.length ≤ 64 := by
    simp only [readBits, List.length_take]
    omega
  exact Nat.lt_of_lt_of_le bound (Nat.pow_le_pow_right (by decide) short)

@[simp] theorem length_bitsOfInt (n : Nat) (value : Int) : (bitsOfInt n value).length = n := by
  induction n generalizing value with
  | zero => rfl
  | succ n ih => simp only [bitsOfInt, List.length_cons, ih]

@[simp] theorem length_ofInt (value : Int) (n : Nat) : (ofInt value n).length = n :=
  length_bitsOfInt n value

@[simp] theorem length_ofNat (value n : Nat) : (ofNat value n).length = n :=
  length_bitsOfInt n value

end Word
end SmallScale
