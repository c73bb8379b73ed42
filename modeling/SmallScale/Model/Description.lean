import SmallScale.Mnemonic
import SmallScale.Word.Text

namespace SmallScale

/-!
# Machine descriptions

A description fixes all that differs between machines of the family: the size
of words and of the store, the place of the address and opcode fields in an
instruction word, the opcode table, and which mnemonics take an operand.  A
description may be nonsense.  `Description.Valid` says when it makes sense, and
`Description.check` finds the first thing wrong with it in a fixed order.
-/

/-- A run of bits inside a word. -/
structure BitField where
  start : Nat
  length : Nat
deriving DecidableEq, Inhabited

/-- The position after the last bit of a field.  The sum is taken to fit the 64-bit
numbers of the host, as it does for every field inside a word. -/
def BitField.stop (field : BitField) : Nat :=
  field.start + field.length

/-- One row of the opcode table. -/
structure Opcode where
  pattern : Word
  mnemonic : Mnemonic
deriving DecidableEq, Inhabited

/-- The two fields of an instruction word. -/
inductive FieldRole where
  | address
  | opcode
deriving DecidableEq

def FieldRole.name : FieldRole → String
  | .address => "address"
  | .opcode => "opcode"

/-- An unchecked machine description. -/
structure Description where
  wordLength : Nat
  wordCount : Nat
  address : BitField
  opcode : BitField
  /-- The usual speed in instructions per second. -/
  typicalSpeed : Nat
  /-- Several patterns may have the same mnemonic. -/
  opcodes : List Opcode
  /-- The mnemonics that take an operand. -/
  withOperand : List Mnemonic
  /-- The mnemonics whose operand is an address of the store. -/
  addressOperand : List Mnemonic
deriving DecidableEq

/-- What can be wrong with a machine description. -/
inductive ModelError where
  | wordLength (bits : Nat)
  | emptyStore
  | fieldOutOfWord (role : FieldRole) (field : BitField) (wordLength : Nat)
  | fieldsOverlap
  | patternWidth (pattern : Word) (expected : Nat)
  | duplicatePattern (pattern : Word)
  | numHasOpcode
  | addressWithoutOperand (m : Mnemonic)
deriving DecidableEq

def ModelError.message : ModelError → String
  | .wordLength bits => s!"word length must be between 1 and 64 bits, got {bits}"
  | .emptyStore => "store must hold at least one word"
  | .fieldOutOfWord role field width =>
      role.name ++ s!" field {field.start}+{field.length} does not fit a {width}-bit word"
  | .fieldsOverlap => "address and opcode fields overlap"
  | .patternWidth pattern expected =>
      "opcode pattern " ++ pattern.toDigits ++ s!" is not {expected} bits wide"
  | .duplicatePattern pattern =>
      "opcode pattern " ++ pattern.toDigits ++ " is declared twice"
  | .numHasOpcode => "NUM is a pseudo-op and cannot have an opcode"
  | .addressWithoutOperand m =>
      m.name ++ " has an address operand but is not listed as taking an operand"

namespace Description

/-- The speed of a machine whose description names none. -/
def defaultSpeed : Nat :=
  700

/-- The mnemonics that take an operand where a description does not say. -/
def defaultWithOperand : List Mnemonic :=
  [.jmp, .jrp, .ldn, .sto, .sub, .num]

/-- The mnemonics with an address operand where a description does not say. -/
def defaultAddressOperand : List Mnemonic :=
  [.jmp, .jrp, .ldn, .sto, .sub]

/-- A description that makes sense. -/
structure Valid (d : Description) : Prop where
  wordLength_pos : 1 ≤ d.wordLength
  wordLength_le : d.wordLength ≤ 64
  wordCount_pos : 1 ≤ d.wordCount
  address_pos : 1 ≤ d.address.length
  address_inside : d.address.stop ≤ d.wordLength
  opcode_pos : 1 ≤ d.opcode.length
  opcode_inside : d.opcode.stop ≤ d.wordLength
  fields_disjoint : d.opcode.stop ≤ d.address.start ∨ d.address.stop ≤ d.opcode.start
  rows_executable : ∀ row ∈ d.opcodes, row.mnemonic ≠ .num
  patterns_wide : ∀ row ∈ d.opcodes, row.pattern.length = d.opcode.length
  patterns_distinct : (d.opcodes.map Opcode.pattern).Nodup
  operands_listed : ∀ m ∈ d.addressOperand, m ∈ d.withOperand

/-- A field is not empty and ends inside the word.  Descriptions with a field whose start
and length add up to more than 64 bits hold are outside of what is modelled. -/
def checkField (d : Description) (role : FieldRole) (field : BitField) :
    Except ModelError Unit :=
  if field.length = 0 ∨ d.wordLength < field.stop then
    .error (.fieldOutOfWord role field d.wordLength)
  else .ok ()

/-- The sizes are possible and the fields are inside the word and apart. -/
def checkLayout (d : Description) : Except ModelError Unit :=
  if d.wordLength < 1 ∨ 64 < d.wordLength then .error (.wordLength d.wordLength)
  else if d.wordCount = 0 then .error .emptyStore
  else
    match d.checkField .address d.address with
    | .error e => .error e
    | .ok () =>
        match d.checkField .opcode d.opcode with
        | .error e => .error e
        | .ok () =>
            if d.address.start < d.opcode.stop ∧ d.opcode.start < d.address.stop then
              .error .fieldsOverlap
            else .ok ()

/-- Rows of the opcode table, checked from the first to the last.  `seen` holds
the patterns of the rows before. -/
def checkRows (width : Nat) (seen : List Word) : List Opcode → Except ModelError Unit
  | [] => .ok ()
  | row :: rest =>
      if row.mnemonic = .num then .error .numHasOpcode
      else if row.pattern.length ≠ width then .error (.patternWidth row.pattern width)
      else if row.pattern ∈ seen then .error (.duplicatePattern row.pattern)
      else checkRows width (row.pattern :: seen) rest

/-- A mnemonic with an address operand takes an operand. -/
def checkOperands (d : Description) : Except ModelError Unit :=
  match d.addressOperand.find? fun m => !d.withOperand.contains m with
  | some m => .error (.addressWithoutOperand m)
  | none => .ok ()

/-- Find the first thing wrong with a description: sizes, fields, then the
opcode table row by row, then the operands. -/
def check (d : Description) : Except ModelError Unit :=
  match d.checkLayout with
  | .error e => .error e
  | .ok () =>
      match checkRows d.opcode.length [] d.opcodes with
      | .error e => .error e
      | .ok () => d.checkOperands

/-- The operand lists in documented order and without repeats. -/
def ordered (listed : List Mnemonic) : List Mnemonic :=
  Mnemonic.all.filter fun m => listed.contains m

/-- The description with its operand lists in normal form. -/
def normal (d : Description) : Description :=
  { d with withOperand := ordered d.withOperand, addressOperand := ordered d.addressOperand }

end Description
end SmallScale
