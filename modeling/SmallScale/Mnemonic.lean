import SmallScale.Text.Capital

namespace SmallScale

/-!
# Mnemonics

The seven instructions of the machine and the pseudo-instruction `NUM`, which
stands for a number that fills a whole word and is never executed.
-/

/-- The symbolic names of instructions. -/
inductive Mnemonic where
  /-- Jump: the control instruction becomes the word at the operand. -/
  | jmp
  /-- Relative jump: the word at the operand is added to the control instruction. -/
  | jrp
  /-- Load the accumulator with the negated word at the operand. -/
  | ldn
  /-- Store the accumulator at the operand. -/
  | sto
  /-- Subtract the word at the operand from the accumulator. -/
  | sub
  /-- Skip the next instruction if the accumulator is negative. -/
  | cmp
  /-- Stop. -/
  | stp
  /-- A number in a word of its own. -/
  | num
deriving DecidableEq, Inhabited

namespace Mnemonic

/-- All mnemonics, in the order of the machine's documentation. -/
def all : List Mnemonic :=
  [jmp, jrp, ldn, sto, sub, cmp, stp, num]

/-- The name in program text. -/
def name : Mnemonic → String
  | jmp => "JMP"
  | jrp => "JRP"
  | ldn => "LDN"
  | sto => "STO"
  | sub => "SUB"
  | cmp => "CMP"
  | stp => "STP"
  | num => "NUM"

theorem mem_all (m : Mnemonic) : m ∈ all := by
  cases m <;> decide

/-- The mnemonic whose name is the capital form of the text. -/
def ofChars? (text : List Char) : Option Mnemonic :=
  all.find? fun m => m.name.toList == Text.capitals text

/-- The mnemonic of this exact name. -/
def ofName? (name : String) : Option Mnemonic :=
  all.find? fun m => m.name == name

/-- The complaint about a text that names no instruction. -/
def unknownMessage (text : String) : String :=
  "unknown mnemonic: " ++ text

end Mnemonic
end SmallScale
