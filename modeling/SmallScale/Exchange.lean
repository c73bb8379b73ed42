import SmallScale.Json.Library
import SmallScale.Json.Shape
import SmallScale.Machine

namespace SmallScale

/-!
# Structured forms of the domain

Every type that is exchanged as structured text has a form: `toJson` gives it and
`ofJson?` reads it back.  A word is a string of binary digits, read as
generously as any word.  A description may leave out its speed and its operand
lists.  A store is taken as it is, whatever the widths of its words.

Two types do more than have a shape: the digits of a word may be wrong and a
model may make no sense.  At the top of a text this is reported as such, in front
of any complaint about what follows the value.
-/

/-- Why a text does not give the value that is asked for. -/
inductive ExchangeError where
  /-- The text is no value of the right shape. -/
  | malformed
  | invalidWord (cause : BitError)
  | invalidModel (cause : ModelError)
deriving DecidableEq

/-- Read a text whose only value has a certain form, with a library. -/
def readExchangedBy {α : Type} (library : JsonLibrary) (form : Json → Except ExchangeError α)
    (text : String) : Except ExchangeError α :=
  match library.parse? text with
  | none => .error .malformed
  | some (value, alone) =>
      match form value with
      | .error e => .error e
      | .ok result => if alone then .ok result else .error .malformed

/-- Read a text whose only value has a certain form. -/
def readExchanged {α : Type} (form : Json → Except ExchangeError α) (text : String) :
    Except ExchangeError α :=
  readExchangedBy .builtIn form text

/-- A form that is only a shape. -/
def shapeOnly {α : Type} (form? : Json → Option α) (value : Json) : Except ExchangeError α :=
  match form? value with
  | some result => .ok result
  | none => .error .malformed

namespace Word

/-- A word as a string of binary digits. -/
def toJson (w : Word) : Json :=
  Json.ofString w.toDigits

/-- A word from a string, with the reason if its characters are no digits. -/
def ofJson (value : Json) : Except ExchangeError Word :=
  match value.text? with
  | none => .error .malformed
  | some text => (ofText text).mapError .invalidWord

/-- A word from a string. -/
def ofJson? (value : Json) : Option Word :=
  (ofJson value).toOption

end Word

namespace Mnemonic

def toJson (m : Mnemonic) : Json :=
  Json.ofString m.name

/-- A mnemonic from its exact name. -/
def ofJson? : Json → Option Mnemonic :=
  Json.choice? all name

end Mnemonic

namespace GlyphStyle

def toJson (style : GlyphStyle) : Json :=
  Json.ofString style.name

def ofJson? : Json → Option GlyphStyle :=
  Json.choice? all name

end GlyphStyle

namespace Program.Format

def toJson (format : Format) : Json :=
  Json.ofString format.name

def ofJson? : Json → Option Format :=
  Json.choice? all name

end Program.Format

namespace RunState

def toJson (state : RunState) : Json :=
  Json.ofString state.name

def ofJson? : Json → Option RunState :=
  Json.choice? all name

end RunState

namespace Instruction

def toJson (i : Instruction) : Json :=
  Json.ofMembers [("mnemonic", i.mnemonic.toJson), ("operand", Json.ofNat i.operand)]

def ofJson? (value : Json) : Option Instruction := do
  let [some mnemonic, some operand] ← value.parts? ["mnemonic", "operand"] | none
  return ⟨← Mnemonic.ofJson? mnemonic, ← operand.nat64?⟩

end Instruction

namespace Executed

def toJson (e : Executed) : Json :=
  Json.ofMembers
    [ ("address", Json.ofNat e.address), ("mnemonic", e.mnemonic.toJson),
      ("operand", Json.ofNat e.operand) ]

def ofJson? (value : Json) : Option Executed := do
  let [some address, some mnemonic, some operand] ←
    value.parts? ["address", "mnemonic", "operand"] | none
  return ⟨← address.nat64?, ← Mnemonic.ofJson? mnemonic, ← operand.nat64?⟩

end Executed

namespace Opcode

def toJson (row : Opcode) : Json :=
  Json.ofMembers [("pattern", row.pattern.toJson), ("mnemonic", row.mnemonic.toJson)]

def ofJson? (value : Json) : Option Opcode := do
  let [some pattern, some mnemonic] ← value.parts? ["pattern", "mnemonic"] | none
  return ⟨← Word.ofJson? pattern, ← Mnemonic.ofJson? mnemonic⟩

end Opcode

namespace Description

def partNames : List String :=
  [ "word_length", "word_count", "address_start", "address_length", "opcode_start",
    "opcode_length", "typical_speed", "opcodes", "with_operand", "address_operand" ]

def toJson (d : Description) : Json :=
  Json.ofMembers
    [ ("word_length", Json.ofNat d.wordLength), ("word_count", Json.ofNat d.wordCount),
      ("address_start", Json.ofNat d.address.start),
      ("address_length", Json.ofNat d.address.length),
      ("opcode_start", Json.ofNat d.opcode.start),
      ("opcode_length", Json.ofNat d.opcode.length),
      ("typical_speed", Json.ofNat d.typicalSpeed),
      ("opcodes", .array (d.opcodes.map Opcode.toJson)),
      ("with_operand", .array (d.withOperand.map Mnemonic.toJson)),
      ("address_operand", .array (d.addressOperand.map Mnemonic.toJson)) ]

def ofJson? (value : Json) : Option Description := do
  let [some wordLength, some wordCount, some addressStart, some addressLength,
      some opcodeStart, some opcodeLength, typicalSpeed, some opcodes, withOperand,
      addressOperand] ← value.parts? partNames | none
  return {
    wordLength := ← wordLength.nat64?
    wordCount := ← wordCount.nat64?
    address := ⟨← addressStart.nat64?, ← addressLength.nat64?⟩
    opcode := ⟨← opcodeStart.nat64?, ← opcodeLength.nat64?⟩
    typicalSpeed := ← Json.orDefault? Json.nat32? defaultSpeed typicalSpeed
    opcodes := ← opcodes.items? Opcode.ofJson?
    withOperand :=
      ← Json.orDefault? (Json.items? Mnemonic.ofJson?) defaultWithOperand withOperand
    addressOperand :=
      ← Json.orDefault? (Json.items? Mnemonic.ofJson?) defaultAddressOperand addressOperand }

end Description

namespace Model

def toJson (model : Model) : Json :=
  model.toDescription.toJson

/-- A model from a description that makes sense, or the reason why it does
not. -/
def ofJson (value : Json) : Except ExchangeError Model :=
  match Description.ofJson? value with
  | none => .error .malformed
  | some d => (ofDescription d).mapError .invalidModel

end Model

namespace Store

def toJson (store : Store) : Json :=
  Json.ofMembers
    [ ("word_length", Json.ofNat store.wordLength),
      ("words", .array (store.words.map Word.toJson)) ]

def ofJson? (value : Json) : Option Store := do
  let [some wordLength, some words] ← value.parts? ["word_length", "words"] | none
  return ⟨← wordLength.nat64?, ← words.items? Word.ofJson?⟩

end Store

namespace Registers

def toJson (registers : Registers) : Json :=
  Json.ofMembers [("ci", registers.control.toJson), ("a", registers.accumulator.toJson)]

def ofJson? (value : Json) : Option Registers := do
  let [some control, some accumulator] ← value.parts? ["ci", "a"] | none
  return ⟨← Word.ofJson? control, ← Word.ofJson? accumulator⟩

end Registers

namespace Snapshot

def partNames : List String :=
  ["regs", "store", "cycles", "state", "speed", "last_instruction"]

def toJson (snapshot : Snapshot) : Json :=
  Json.ofMembers
    [ ("regs", snapshot.registers.toJson), ("store", snapshot.store.toJson),
      ("cycles", Json.ofNat snapshot.cycles), ("state", snapshot.state.toJson),
      ("speed", Json.ofNat snapshot.speed),
      ("last_instruction", (snapshot.last.map Executed.toJson).getD .null) ]

/-- The last instruction of a snapshot.  By name it may be left out. -/
def lastOfJson? (named : Bool) : Option Json → Option (Option Executed)
  | some value => value.nullable? Executed.ofJson?
  | none => if named then some none else none

def ofJson? (value : Json) : Option Snapshot := do
  let [some registers, some store, some cycles, some state, some speed, last] ←
    value.parts? partNames | none
  return {
    registers := ← Registers.ofJson? registers
    store := ← Store.ofJson? store
    cycles := ← cycles.nat64?
    state := ← RunState.ofJson? state
    speed := ← speed.nat32?
    last := ← lastOfJson? value.isObject last }

end Snapshot

namespace Machine

/-- All that an observer is shown, as text. -/
def stateText (machine : Machine) : String :=
  machine.snapshot.toJson.write

end Machine
end SmallScale
