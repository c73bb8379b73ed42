import SmallScale.Model.Check

namespace SmallScale

/-!
# Machine models

A model is a valid description in normal form, so two models are equal exactly
when they describe the same machine.  The opcode table is searched from its
first row on in both directions.
-/

/-- A machine of the family: a valid description in normal form. -/
structure Model extends Description where
  valid : toDescription.Valid
  inNormalForm : toDescription.normal = toDescription
deriving DecidableEq

namespace Model

/-- Build a model from a description, or say what is wrong with it. -/
def ofDescription (d : Description) : Except ModelError Model :=
  match passed : d.check with
  | .error e => .error e
  | .ok () =>
      .ok ⟨d.normal, (Description.valid_of_check passed).normal, d.normal_normal⟩

/-- The mnemonic declared for an opcode pattern. -/
def mnemonicOf? (model : Model) (pattern : Word) : Option Mnemonic :=
  (model.opcodes.find? fun row => row.pattern == pattern).map Opcode.mnemonic

/-- The canonical pattern of a mnemonic: the first one declared. -/
def patternOf? (model : Model) (m : Mnemonic) : Option Word :=
  (model.opcodes.find? fun row => row.mnemonic == m).map Opcode.pattern

/-- Program text for this machine may use the mnemonic. -/
def knows (model : Model) (m : Mnemonic) : Bool :=
  m == .num || model.opcodes.any fun row => row.mnemonic == m

/-- The mnemonic takes an operand. -/
def takesOperand (model : Model) (m : Mnemonic) : Bool :=
  model.withOperand.contains m

/-- The operand of the mnemonic is an address of the store. -/
def operandIsAddress (model : Model) (m : Mnemonic) : Bool :=
  model.addressOperand.contains m

/-- The small-scale experimental machine of 1948: 32 words of 32 bits, an
address in bits 0 to 4 and an opcode in bits 13 to 15.  Two patterns mean
`SUB`. -/
def smallScaleDescription : Description where
  wordLength := 32
  wordCount := 32
  address := ⟨0, 5⟩
  opcode := ⟨13, 3⟩
  typicalSpeed := Description.defaultSpeed
  opcodes :=
    [ ⟨⟨[false, false, false]⟩, .jmp⟩,
      ⟨⟨[true, false, false]⟩, .jrp⟩,
      ⟨⟨[false, true, false]⟩, .ldn⟩,
      ⟨⟨[true, true, false]⟩, .sto⟩,
      ⟨⟨[false, false, true]⟩, .sub⟩,
      ⟨⟨[true, false, true]⟩, .sub⟩,
      ⟨⟨[false, true, true]⟩, .cmp⟩,
      ⟨⟨[true, true, true]⟩, .stp⟩ ]
  withOperand := Description.defaultWithOperand
  addressOperand := Description.defaultAddressOperand

def smallScale : Model where
  toDescription := smallScaleDescription
  valid := Description.valid_of_check rfl
  inNormalForm := by decide

instance : Inhabited Model :=
  ⟨smallScale⟩

end Model
end SmallScale
