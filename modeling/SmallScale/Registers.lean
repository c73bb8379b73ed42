import SmallScale.Word.Text

namespace SmallScale

/-!
# Registers

The machine has two registers a programmer can see.  The control instruction
is read as an unsigned address and the accumulator as a signed number.
-/

structure Registers where
  /-- The address of the instruction executed last. -/
  control : Word
  accumulator : Word
deriving DecidableEq, Inhabited

namespace Registers

/-- Clear registers of `width` bits. -/
def empty (width : Nat) : Registers :=
  ⟨Word.zero width, Word.zero width⟩

/-- The registers with all bits clear and their widths kept. -/
def cleared (registers : Registers) : Registers :=
  ⟨Word.zero registers.control.length, Word.zero registers.accumulator.length⟩

/-- The control instruction as an address. -/
def controlValue (registers : Registers) : Nat :=
  registers.control.unsigned

/-- The accumulator as a number. -/
def accumulatorValue (registers : Registers) : Int :=
  registers.accumulator.signed

/-- The address after the control instruction; past the last word of the store
comes the first one again. -/
def nextAddress (registers : Registers) (wordCount : Nat) : Nat :=
  (registers.controlValue + 1) % max wordCount 1

/-- Move the control instruction on to the next address.  Its width is kept. -/
def advance (registers : Registers) (wordCount : Nat) : Registers :=
  { registers with
    control := Word.ofNat (registers.nextAddress wordCount) registers.control.length }

/-- Both registers for people looking for faults. -/
def inspect (registers : Registers) : String :=
  "Registers \x7b ci: " ++ registers.control.inspect ++
    ", a: " ++ registers.accumulator.inspect ++ " \x7d"

end Registers
end SmallScale
