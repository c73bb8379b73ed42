import SmallScale.Model

namespace SmallScale

/-!
# Instruction words

An instruction word carries an opcode pattern in the opcode field and an
unsigned operand in the address field.  The other bits are ignored when a word
is decoded and clear when one is encoded.  A `NUM` word instead holds a signed
number that fills it.
-/

/-- A mnemonic with its operand. -/
structure Instruction where
  mnemonic : Mnemonic
  operand : Nat
deriving DecidableEq

/-- Why a word is no instruction. -/
inductive DecodeError where
  /-- The opcode field holds a pattern that the table does not have. -/
  | unknownOpcode (pattern : Word)
  /-- The word ends before one of the two fields does. -/
  | truncated (width needed : Nat)
deriving DecidableEq

/-- Why there is no word for an instruction or a number. -/
inductive EncodeError where
  | noOpcode (m : Mnemonic)
  | operandTooLarge (operand bits : Nat)
  | valueTooLarge (value : Int) (bits : Nat)
deriving DecidableEq

def DecodeError.message : DecodeError → String
  | .unknownOpcode pattern => "opcode '" ++ pattern.toDigits ++ "' not recognized"
  | .truncated width needed =>
      s!"{width}-bit word is too short for the instruction fields ({needed} bits needed)"

def EncodeError.message : EncodeError → String
  | .noOpcode m => m.name ++ " has no opcode on this machine"
  | .operandTooLarge operand bits =>
      s!"operand {operand} does not fit the {bits}-bit address field"
  | .valueTooLarge value bits =>
      "value " ++ Decimal.signedText value ++ s!" does not fit a {bits}-bit word"

namespace Model

/-- The number of bits that a word needs to hold both fields. -/
def neededBits (model : Model) : Nat :=
  max model.opcode.stop model.address.stop

def opcodeField (model : Model) (w : Word) : Word :=
  w.extract model.opcode.start model.opcode.length

def addressField (model : Model) (w : Word) : Word :=
  w.extract model.address.start model.address.length

/-- Read a word as an instruction. -/
def decode (model : Model) (w : Word) : Except DecodeError Instruction :=
  if w.length < model.neededBits then .error (.truncated w.length model.neededBits)
  else
    match model.mnemonicOf? (model.opcodeField w) with
    | none => .error (.unknownOpcode (model.opcodeField w))
    | some m => .ok ⟨m, (model.addressField w).unsigned⟩

/-- The word that holds an operand and an opcode pattern and is clear
elsewhere. -/
def instructionWord (model : Model) (operand : Nat) (pattern : Word) : Word :=
  ((Word.zero model.wordLength).overwrite model.address.start
    (Word.ofNat operand model.address.length)).overwrite model.opcode.start pattern

/-- Write an instruction with the canonical pattern of its mnemonic. -/
def encode (model : Model) (i : Instruction) : Except EncodeError Word :=
  match model.patternOf? i.mnemonic with
  | none => .error (.noOpcode i.mnemonic)
  | some pattern =>
      if Word.fitsUnsigned i.operand model.address.length then
        .ok (model.instructionWord i.operand pattern)
      else .error (.operandTooLarge i.operand model.address.length)

/-- Write a number that fills a word. -/
def encodeNumber (model : Model) (value : Int) : Except EncodeError Word :=
  if Word.fitsSigned value model.wordLength then .ok (Word.ofInt value model.wordLength)
  else .error (.valueTooLarge value model.wordLength)

/-- The instruction that a word encodes exactly: encoding it again gives back
the same word.  The clear word counts as data. -/
def exactInstruction? (model : Model) (w : Word) : Option Instruction :=
  if w.isZero then none
  else
    match model.decode w with
    | .error _ => none
    | .ok i =>
        match model.encode i with
        | .error _ => none
        | .ok canonical => if canonical = w then some i else none

/-- An instruction in program text; the operand is left out where the mnemonic
takes none. -/
def instructionText (model : Model) (i : Instruction) : String :=
  if model.takesOperand i.mnemonic then i.mnemonic.name ++ " " ++ Decimal.text i.operand
  else i.mnemonic.name

/-- A word in program text, as an instruction if it is exactly one and else as
a number. -/
def wordText (model : Model) (w : Word) : String :=
  match model.exactInstruction? w with
  | some i => model.instructionText i
  | none => "NUM " ++ Decimal.signedText w.signed

end Model
end SmallScale
