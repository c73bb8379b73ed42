namespace SmallScale
namespace Decimal

/-!
# Decimal numbers as text

Numbers are written in decimal without leading zeros, padded where a listing
asks for a fixed width.  Reading is strict: a nonempty run of digits, in front
of it at most one sign where a sign is allowed, and a value that a 64-bit
register of the host can hold.  Leading zeros are harmless.
-/

/-- The digit character of a number below ten. -/
def digit (n : Nat) : Char :=
  Char.ofNat (48 + n)

/-- The decimal digits of a number, most significant first. -/
def digits (n : Nat) : List Char :=
  if n < 10 then [digit n] else digits (n / 10) ++ [digit (n % 10)]

/-- A natural number in decimal. -/
def text (n : Nat) : String :=
  String.ofList (digits n)

/-- An integer in decimal, with a minus sign if it is negative. -/
def signedText (value : Int) : String :=
  if value < 0 then "-" ++ text value.natAbs else text value.natAbs

/-- A natural number with at least `width` digits, filled up with zeros. -/
def padded (width n : Nat) : String :=
  let shown := digits n
  String.ofList (List.replicate (width - shown.length) '0' ++ shown)

/-- A text moved to the right end of a column of at least `width` characters. -/
def alignedRight (width : Nat) (shown : String) : String :=
  String.ofList (List.replicate (width - shown.length) ' ') ++ shown

def isDigit (c : Char) : Bool :=
  decide (48 ≤ c.toNat) && decide (c.toNat ≤ 57)

/-- A nonempty run of digits. -/
def isDigits (cs : List Char) : Bool :=
  !cs.isEmpty && cs.all isDigit

/-- The number that a run of digits spells. -/
def valueOf (cs : List Char) : Nat :=
  cs.foldl (fun value c => 10 * value + (c.toNat - 48)) 0

/-- Read a nonempty run of digits. -/
def read? (cs : List Char) : Option Nat :=
  if isDigits cs then some (valueOf cs) else none

/-- Read an unsigned 64-bit number; a plus sign in front is allowed. -/
def readUnsigned? (cs : List Char) : Option Nat :=
  let run := match cs with
    | '+' :: rest => rest
    | _ => cs
  (read? run).filter fun value => value < UInt64.size

/-- Read a signed 64-bit number; a plus or minus sign in front is allowed. -/
def readSigned? (cs : List Char) : Option Int :=
  let value := match cs with
    | '-' :: rest => (read? rest).map fun value => -(value : Int)
    | '+' :: rest => (read? rest).map Int.ofNat
    | _ => (read? cs).map Int.ofNat
  value.filter fun value =>
    Int64.minValue.toInt ≤ value && value ≤ Int64.maxValue.toInt

end Decimal
end SmallScale
