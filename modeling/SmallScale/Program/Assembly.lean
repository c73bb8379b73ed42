import SmallScale.Program.Fault
import SmallScale.Text.Blank

namespace SmallScale
namespace Program
namespace Assembly

/-!
# Assembly lines

A line of assembly text is its address, a mnemonic and perhaps an operand,
separated by blanks; what follows is ignored.  The address must be the number
of meaningful lines before it.  A mnemonic that takes no operand is encoded
with operand zero.
-/

/-- What is wrong with the address of a line, if anything. -/
def addressFault? (expected : Nat) (found : List Char) : Option LineFault :=
  if Decimal.readUnsigned? found = some expected then none
  else some (.unexpectedAddress expected (String.ofList found))

/-- The mnemonic of a line, which the machine must know. -/
def mnemonic (model : Model) (name : List Char) : Except LineFault Mnemonic :=
  match (Mnemonic.ofChars? name).filter model.knows with
  | some m => .ok m
  | none => .error (.unknownMnemonic (String.ofList name))

/-- The operand of a line.  Where the mnemonic wants an address it must be one
of the store's. -/
def operand (model : Model) (wordCount : Nat) (m : Mnemonic) :
    List (List Char) → Except LineFault Int
  | [] => .error (.missingOperand m)
  | token :: _ =>
      match Decimal.readSigned? token with
      | none => .error (.invalidOperand m (String.ofList token))
      | some value =>
          if model.operandIsAddress m && !(decide (0 ≤ value) && decide (value < wordCount)) then
            .error (.addressOutOfRange m value (wordCount - 1))
          else .ok value

/-- The word of an instruction or a number.  A negative operand is refused under
the 64-bit unsigned number that has the same bits.  Addresses of the host are taken
to have 64 bits as well, so that no other operand changes when it becomes one. -/
def encode (model : Model) (m : Mnemonic) (operand : Int) : Except EncodeError Word :=
  if m = .num then model.encodeNumber operand
  else if operand < 0 then
    .error (.operandTooLarge (operand + UInt64.size).toNat model.address.length)
  else model.encode ⟨m, operand.toNat⟩

/-- The word that a line stands for, from the tokens after its address. -/
def word (model : Model) (wordCount : Nat) : List (List Char) → Except LineFault Word
  | [] => .error .missingMnemonic
  | name :: operands =>
      match mnemonic model name with
      | .error fault => .error fault
      | .ok m =>
          match if model.takesOperand m then operand model wordCount m operands else .ok 0 with
          | .error fault => .error fault
          | .ok value =>
              match encode model m value with
              | .error cause => .error (.unencodable cause)
              | .ok w => .ok w

/-- Read the line that should have this address. -/
def read (model : Model) (wordCount expected : Nat) (line : List Char) : LineReading :=
  let tokens := Text.words line
  ⟨addressFault? expected (tokens.headD []), word model wordCount tokens.tail⟩

end Assembly
end Program
end SmallScale
