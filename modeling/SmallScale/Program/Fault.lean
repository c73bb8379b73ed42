import SmallScale.Instruction

namespace SmallScale
namespace Program

/-!
# Faults in program text

A program is refused with a report that names every faulty line, what is wrong
with it, and its meaning.
-/

/-- What can be wrong with one line. -/
inductive LineFault where
  | unexpectedAddress (expected : Nat) (found : String)
  | missingMnemonic
  | unknownMnemonic (found : String)
  | missingOperand (m : Mnemonic)
  | invalidOperand (m : Mnemonic) (found : String)
  | addressOutOfRange (m : Mnemonic) (operand : Int) (highest : Nat)
  | unencodable (cause : EncodeError)
  | tooManyWords (highest : Nat)
  | malformedDumpLine
  | invalidBits (cause : BitError)
  | wordLength (expected found : Nat)
deriving DecidableEq

def LineFault.message : LineFault → String
  | .unexpectedAddress expected found =>
      "invalid address '" ++ found ++ "', expected " ++ Decimal.padded 2 expected
  | .missingMnemonic => "missing mnemonic"
  | .unknownMnemonic found => "invalid mnemonic '" ++ found ++ "'"
  | .missingOperand m => "missing operand for '" ++ m.name ++ "' instruction"
  | .invalidOperand m found =>
      "'" ++ m.name ++ "' operand '" ++ found ++ "' is not an integer"
  | .addressOutOfRange m operand highest =>
      "'" ++ m.name ++ s!"' instruction requires a valid address (from 0 to {highest}), got " ++
        Decimal.signedText operand
  | .unencodable cause => "not enough space to store value: " ++ cause.message
  | .tooManyWords highest =>
      s!"too many words for this machine (highest address is {highest})"
  | .malformedDumpLine => "expected '<address>: <bits>'"
  | .invalidBits cause => "invalid bit string: " ++ cause.message
  | .wordLength expected found => s!"word has {found} bits, expected {expected}"

/-- A fault and where it is. -/
structure Diagnostic where
  /-- The number of the line in the text, counted from one. -/
  line : Nat
  /-- The meaning of the line. -/
  text : String
  fault : LineFault
deriving DecidableEq

/-- The two lines that a report gives to a fault. -/
def Diagnostic.block (d : Diagnostic) : String :=
  "line " ++ Decimal.text d.line ++ ": " ++ d.fault.message ++ "\n    " ++ d.text

/-- Why a program is not loaded. -/
inductive LoadError where
  /-- No line looks like a line of a program. -/
  | unknownFormat
  /-- The words of the store are not as wide as those of the machine. -/
  | storeWidth (store model : Nat)
  /-- Some lines are faulty. -/
  | rejected (diagnostics : List Diagnostic)
deriving DecidableEq

/-- The wording of a load error: for a rejected program the number of faults,
then all of them. -/
def LoadError.message : LoadError → String
  | .unknownFormat => "unrecognized program format"
  | .storeWidth store model =>
      s!"store holds {store}-bit words but the machine uses {model}-bit words"
  | .rejected diagnostics =>
      "\n".intercalate
        ((Decimal.text diagnostics.length ++ " error(s) found in program") ::
          diagnostics.map Diagnostic.block)

/-- What a line of a program says: whether its address is the expected one, and
the word it stands for. -/
structure LineReading where
  addressFault : Option LineFault
  word : Except LineFault Word

/-- The faults of a line, when there is room for a word or there is not. -/
def LineReading.faults (reading : LineReading) (overflow : Option LineFault) : List LineFault :=
  reading.addressFault.toList ++
    match reading.word with
    | .error fault => [fault]
    | .ok _ => overflow.toList

end Program
end SmallScale
