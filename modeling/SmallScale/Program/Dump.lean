import SmallScale.Program.Fault
import SmallScale.Program.Line
import SmallScale.Store

namespace SmallScale
namespace Program
namespace Dump

/-!
# Binary dumps

A dump shows every word of a store on a line of its own: the address with at
least four digits, a colon, a space and the bits.  Two comment lines in front
say what it is.  Read back, addresses and bits may have blanks around them and
bits the usual mark in front, but the width of a word must be that of the
store.
-/

/-- The dump of a store. -/
def write (store : Store) : String :=
  "; SSEM store dump\n; " ++ Decimal.text store.wordCount ++ " words of " ++
    Decimal.text store.wordLength ++ " bits\n" ++
    String.join (store.words.zipIdx.map fun (w, address) =>
      Decimal.padded 4 address ++ ": " ++ w.toDigits ++ "\n")

/-- The word after the colon of a line. -/
def word (wordLength : Nat) (bits : List Char) : Except LineFault Word :=
  match Word.ofChars bits with
  | .error cause => .error (.invalidBits cause)
  | .ok w => if w.length = wordLength then .ok w else .error (.wordLength wordLength w.length)

/-- Read the line that should have this address. -/
def read (wordLength expected : Nat) (line : List Char) : LineReading :=
  match cutAtColon line with
  | none => ⟨none, .error .malformedDumpLine⟩
  | some (address, bits) =>
      { addressFault :=
          if Decimal.readUnsigned? (Text.trim address) = some expected then none
          else some (.unexpectedAddress expected (String.ofList address))
        word := word wordLength bits }

end Dump
end Program
end SmallScale
