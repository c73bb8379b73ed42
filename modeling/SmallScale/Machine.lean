import SmallScale.Controls
import SmallScale.Program
import SmallScale.Registers

namespace SmallScale

/-!
# The machine

A machine is a model with registers, a store, controls, a count of executed
cycles and the instruction executed last.  Nothing ties the widths of registers
and store to the model: they agree in a new machine and each cycle keeps it so,
but words of any width may be put into the registers from outside.

A cycle advances the control instruction, fetches the word it points to, decodes
it and executes the instruction.  A cycle that fails leaves the control
instruction advanced and everything else as it was.
-/

/-- Whether a machine executes instructions. -/
inductive RunState where
  | running
  | halted
deriving DecidableEq, Inhabited

def RunState.all : List RunState :=
  [running, halted]

def RunState.name : RunState → String
  | running => "Running"
  | halted => "Halted"

/-- An executed instruction and the address it was fetched from. -/
structure Executed where
  address : Nat
  mnemonic : Mnemonic
  operand : Nat
deriving DecidableEq

/-- Address, mnemonic and operand, the numbers with at least two digits. -/
def Executed.text (e : Executed) : String :=
  Decimal.padded 2 e.address ++ " " ++ e.mnemonic.name ++ " " ++ Decimal.padded 2 e.operand

/-- Why a cycle fails. -/
inductive MachineError where
  | decode (cause : DecodeError)
  | store (cause : StoreError)
  | notExecutable (m : Mnemonic)
deriving DecidableEq

def MachineError.message : MachineError → String
  | .decode cause => "decode error: " ++ cause.message
  | .store cause => "out of bound store access: " ++ cause.message
  | .notExecutable m => m.name ++ " cannot be executed"

/-- A machine of the family. -/
structure Machine where
  model : Model
  registers : Registers
  store : Store
  controls : Controls
  /-- The number of cycles executed so far. -/
  cycles : Nat
  last : Option Executed
deriving DecidableEq

/-- What an observer is shown of a machine. -/
structure Snapshot where
  registers : Registers
  store : Store
  cycles : Nat
  state : RunState
  speed : Nat
  last : Option Executed
deriving DecidableEq

namespace Machine

/-- A halted machine with clear registers and a clear store. -/
def initial (model : Model) : Machine where
  model := model
  registers := Registers.empty model.wordLength
  store := Store.empty model.wordLength model.wordCount
  controls := Controls.initial model.typicalSpeed
  cycles := 0
  last := none

/-- The run state that the controls ask for. -/
def state (machine : Machine) : RunState :=
  if machine.controls.running then .running else .halted

/-- What an observer is shown now. -/
def snapshot (machine : Machine) : Snapshot :=
  ⟨machine.registers, machine.store, machine.cycles, machine.state, machine.controls.speed,
    machine.last⟩

def withRegisters (machine : Machine) (registers : Registers) : Machine :=
  { machine with registers }

def withControl (machine : Machine) (w : Word) : Machine :=
  { machine with registers := { machine.registers with control := w } }

def withAccumulator (machine : Machine) (w : Word) : Machine :=
  { machine with registers := { machine.registers with accumulator := w } }

def withStore (machine : Machine) (store : Store) : Machine :=
  { machine with store }

def withControls (machine : Machine) (controls : Controls) : Machine :=
  { machine with controls }

/-- The machine after one action of its control surface. -/
def act (machine : Machine) (action : ControlAction) : Machine :=
  machine.withControls (machine.controls.act action)

/-- The machine with a program in place of the contents of its store. -/
def load (machine : Machine) (source : String) : Except Program.LoadError Machine :=
  (Program.load machine.model source machine.store).map machine.withStore

def clearStore (machine : Machine) : Machine :=
  machine.withStore machine.store.cleared

def clearRegisters (machine : Machine) : Machine :=
  machine.withRegisters machine.registers.cleared

/-- The address of the next fetch. -/
def fetchAddress (machine : Machine) : Nat :=
  machine.registers.nextAddress machine.model.wordCount

/-- The machine with its control instruction advanced. -/
def advanced (machine : Machine) : Machine :=
  machine.withRegisters (machine.registers.advance machine.model.wordCount)

def operandWord (machine : Machine) (address : Nat) : Except MachineError Word :=
  (machine.store.get address).mapError .store

/-- Execute an instruction.  Results of arithmetic are written on as many bits
as a word of the model has. -/
def execute (machine : Machine) (i : Instruction) : Except MachineError Machine :=
  let width := machine.model.wordLength
  let registers := machine.registers
  match i.mnemonic with
  | .jmp => (machine.operandWord i.operand).map machine.withControl
  | .jrp =>
      (machine.operandWord i.operand).map fun offset =>
        machine.withControl (Word.ofInt (registers.control.signed + offset.signed) width)
  | .ldn =>
      (machine.operandWord i.operand).map fun value =>
        machine.withAccumulator (Word.ofInt (-value.signed) width)
  | .sto =>
      ((machine.store.set i.operand registers.accumulator).mapError .store).map machine.withStore
  | .sub =>
      (machine.operandWord i.operand).map fun value =>
        machine.withAccumulator (Word.ofInt (registers.accumulator.signed - value.signed) width)
  | .cmp => .ok (if registers.accumulatorValue < 0 then machine.advanced else machine)
  | .stp => .ok (machine.act (.setRunning false))
  | .num => .error (.notExecutable .num)

def instructionAt (machine : Machine) (address : Nat) : Except MachineError Instruction :=
  match machine.operandWord address with
  | .error e => .error e
  | .ok w => (machine.model.decode w).mapError .decode

def executeAt (machine : Machine) (address : Nat) : Except MachineError (Instruction × Machine) :=
  match machine.instructionAt address with
  | .error e => .error e
  | .ok i => (machine.execute i).map fun after => (i, after)

/-- One cycle: the machine after it, and the instruction executed or the reason
why there is none. -/
def step (machine : Machine) : Machine × Except MachineError Executed :=
  match machine.advanced.executeAt machine.fetchAddress with
  | .error e => (machine.advanced, .error e)
  | .ok (i, after) =>
      let executed := ⟨machine.fetchAddress, i.mnemonic, i.operand⟩
      ({ after with cycles := after.cycles + 1, last := some executed }, .ok executed)

/-- A summary for people looking for faults. -/
def inspect (machine : Machine) : String :=
  "Ssem \x7b state: " ++ machine.state.name ++ ", cycles: " ++ Decimal.text machine.cycles ++
    ", regs: " ++ machine.registers.inspect ++ " \x7d"

instance : Inhabited Machine :=
  ⟨initial Model.smallScale⟩

end Machine
end SmallScale
