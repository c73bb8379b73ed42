import SmallScale.Proofs.Machine.Mishap

namespace SmallScale

/-!
# Cycles in place

A cycle changes the parts of a machine one after the other, and nothing takes a
change back when a later access fails.  This module writes a cycle down as such a
sequence.  An access either reads and may fail, or writes and cannot, and what is
written before a failure stays.

An instruction does all its reading, and with it all that can fail, before it writes.
So an instruction that fails leaves the machine untouched, whatever the widths of its
registers and the size of its store, and a cycle that fails has done no more than
advance the control instruction.  Carried out in place, a cycle is the cycle that the
machine executes.
-/

/-- A sequence of accesses to a machine: the machine that it leaves, and what it gives
or fails with. -/
structure Routine (α : Type) where
  run : Machine → Machine × Except MachineError α

namespace Routine

variable {α β : Type}

/-- An access that reads and may fail. -/
def read (look : Machine → Except MachineError α) : Routine α :=
  ⟨fun machine => (machine, look machine)⟩

/-- An access that writes. -/
def write (change : Machine → Machine) : Routine Unit :=
  ⟨fun machine => (change machine, .ok ())⟩

/-- One sequence after another.  A failure ends both and takes nothing back. -/
instance : Monad Routine where
  pure value := read fun _ => .ok value
  bind first next := ⟨fun machine =>
    match first.run machine with
    | (reached, .ok value) => (next value).run reached
    | (reached, .error e) => (reached, .error e)⟩

def readWord (address : Nat) : Routine Word :=
  read fun machine => (machine.store.get address).mapError .store

/-- Replace a word of the store.  Its width is looked at first, then the address. -/
def writeWord (address : Nat) (w : Word) : Routine Unit := do
  read fun machine =>
    if w.length = machine.store.wordLength then .ok ()
    else .error (.store (.widthMismatch machine.store.wordLength w.length))
  read fun machine =>
    if address < machine.store.wordCount then .ok ()
    else .error (.store (.addressOutOfRange address machine.store.wordCount))
  write fun machine =>
    machine.withStore { machine.store with words := machine.store.words.set address w }

/-- Carry out an instruction. -/
def perform (i : Instruction) : Routine Unit :=
  match i.mnemonic with
  | .jmp => do
      let w ← readWord i.operand
      write fun machine => machine.withControl w
  | .jrp => do
      let offset ← readWord i.operand
      write fun machine =>
        machine.withControl
          (Word.ofInt (machine.registers.control.signed + offset.signed) machine.model.wordLength)
  | .ldn => do
      let value ← readWord i.operand
      write fun machine =>
        machine.withAccumulator (Word.ofInt (-value.signed) machine.model.wordLength)
  | .sto => do
      let w ← read fun machine => .ok machine.registers.accumulator
      writeWord i.operand w
  | .sub => do
      let value ← readWord i.operand
      write fun machine =>
        machine.withAccumulator
          (Word.ofInt (machine.registers.accumulator.signed - value.signed)
            machine.model.wordLength)
  | .cmp =>
      write fun machine =>
        if machine.registers.accumulatorValue < 0 then machine.advanced else machine
  | .stp => write fun machine => machine.act (.setRunning false)
  | .num => read fun _ => .error (.notExecutable .num)

/-- Fetch from an address, decode, carry out, record. -/
def executeAt (address : Nat) : Routine Executed := do
  let w ← readWord address
  let i ← read fun machine => (machine.model.decode w).mapError .decode
  perform i
  write fun machine => machine.recorded ⟨address, i.mnemonic, i.operand⟩
  return ⟨address, i.mnemonic, i.operand⟩

/-- One cycle.  The control instruction is advanced before anything is read from the
store. -/
def cycle : Routine Executed := do
  let address ← read fun machine => .ok machine.fetchAddress
  write Machine.advanced
  executeAt address

/-- The sequence fails, if it does, before it has written anything. -/
def FailsUntouched (routine : Routine α) : Prop :=
  ∀ before after e, routine.run before = (after, .error e) → after = before

variable {before after : Machine} {e : MachineError}

/-! ## Failures of sequences -/

theorem run_bind_of_ok {first : Routine α} {next : α → Routine β} {value : α}
    {reached : Machine} (done : first.run before = (reached, .ok value)) :
    (first >>= next).run before = (next value).run reached := by
  change (match first.run before with
    | (reached, .ok value) => (next value).run reached
    | (reached, .error e) => (reached, .error e)) = _
  rw [done]

theorem run_bind_of_error {first : Routine α} {next : α → Routine β}
    (failed : first.run before = (after, .error e)) :
    (first >>= next).run before = (after, .error e) := by
  change (match first.run before with
    | (reached, .ok value) => (next value).run reached
    | (reached, .error e) => (reached, .error e)) = _
  rw [failed]

/-- A sequence fails in its first part or, after that, in its second. -/
theorem run_bind_eq_error {first : Routine α} {next : α → Routine β}
    (failed : (first >>= next).run before = (after, .error e)) :
    first.run before = (after, .error e) ∨
      ∃ value reached, first.run before = (reached, .ok value) ∧
        (next value).run reached = (after, .error e) := by
  cases result : first.run before with
  | mk reached outcome =>
      cases outcome with
      | error cause =>
          rw [run_bind_of_error result] at failed
          cases failed
          exact .inl rfl
      | ok value =>
          rw [run_bind_of_ok result] at failed
          exact .inr ⟨value, reached, rfl, failed⟩

theorem failsUntouched_read (look : Machine → Except MachineError α) :
    FailsUntouched (read look) := by
  intro before after e failed
  exact (Prod.mk.inj failed).1.symm

theorem failsUntouched_write (change : Machine → Machine) : FailsUntouched (write change) := by
  intro before after e failed
  cases (Prod.mk.inj failed).2

/-- Reading first does not touch the machine. -/
theorem FailsUntouched.read_bind {look : Machine → Except MachineError α} {next : α → Routine β}
    (untouched : ∀ value, FailsUntouched (next value)) : FailsUntouched (read look >>= next) := by
  intro before after e failed
  rcases run_bind_eq_error failed with failed | ⟨value, reached, done, failed⟩
  · exact failsUntouched_read look before after e failed
  · rw [← (Prod.mk.inj done).1] at failed
    exact untouched value before after e failed

/-- What cannot fail may come behind. -/
theorem FailsUntouched.bind {first : Routine α} {next : α → Routine β}
    (untouched : FailsUntouched first)
    (safe : ∀ value reached, ∃ result, ((next value).run reached).2 = .ok result) :
    FailsUntouched (first >>= next) := by
  intro before after e failed
  rcases run_bind_eq_error failed with failed | ⟨value, reached, done, failed⟩
  · exact untouched before after e failed
  · rcases safe value reached with ⟨result, succeeded⟩
    rw [failed] at succeeded
    cases succeeded

theorem failsUntouched_readWord_write (address : Nat) (change : Word → Machine → Machine) :
    FailsUntouched (readWord address >>= fun w => write (change w)) :=
  .read_bind fun w => failsUntouched_write (change w)

theorem failsUntouched_writeWord (address : Nat) (w : Word) :
    FailsUntouched (writeWord address w) :=
  .read_bind fun _ => .read_bind fun _ => failsUntouched_write _

/-- In every instruction all that can fail comes before the first write. -/
theorem failsUntouched_perform (i : Instruction) : FailsUntouched (perform i) := by
  rcases i with ⟨m, operand⟩
  cases m with
  | jmp => exact failsUntouched_readWord_write _ _
  | jrp => exact failsUntouched_readWord_write _ _
  | ldn => exact failsUntouched_readWord_write _ _
  | sto => exact .read_bind fun w => failsUntouched_writeWord operand w
  | sub => exact failsUntouched_readWord_write _ _
  | cmp => exact failsUntouched_write _
  | stp => exact failsUntouched_write _
  | num => exact failsUntouched_read _

theorem failsUntouched_executeAt (address : Nat) : FailsUntouched (executeAt address) :=
  .read_bind fun _ => .read_bind fun i => (failsUntouched_perform i).bind fun _ _ => ⟨_, rfl⟩

/-- A cycle that fails has advanced the control instruction and written nothing
else. -/
theorem eq_advanced_of_cycle_error (failed : cycle.run before = (after, .error e)) :
    after = before.advanced :=
  failsUntouched_executeAt before.fetchAddress before.advanced after e failed

/-! ## The cycle that the machine executes -/

theorem run_read_bind (look : Machine → Except MachineError α) (next : α → Routine β)
    (machine : Machine) :
    (read look >>= next).run machine =
      match look machine with
      | .ok value => (next value).run machine
      | .error e => (machine, .error e) := by
  cases looked : look machine with
  | error e => exact run_bind_of_error (Prod.ext rfl looked)
  | ok value => exact run_bind_of_ok (Prod.ext rfl looked)

/-- The two looks at the store before a word is replaced refuse what the store
refuses. -/
theorem run_writeWord (address : Nat) (w : Word) (machine : Machine) :
    (writeWord address w).run machine =
      match machine.store.set address w with
      | .ok store => (machine.withStore store, .ok ())
      | .error cause => (machine, .error (.store cause)) := by
  rw [writeWord, run_read_bind, Store.set]
  by_cases wide : w.length = machine.store.wordLength
  · rw [if_pos wide, if_neg (not_not.mpr wide)]
    by_cases inside : address < machine.store.wordCount
    · simp only [run_read_bind, if_pos inside, write]
    · simp only [run_read_bind, if_neg inside]
  · rw [if_neg wide, if_pos wide]

/-- Carried out in place, an instruction has its effect as a whole or none. -/
theorem run_perform (i : Instruction) (machine : Machine) :
    (perform i).run machine =
      match machine.execute i with
      | .ok after => (after, .ok ())
      | .error e => (machine, .error e) := by
  have reading (address : Nat) (change : Word → Machine → Machine) :
      (readWord address >>= fun w => write (change w)).run machine =
        match (machine.operandWord address).map (change · machine) with
        | .ok after => (after, .ok ())
        | .error e => (machine, .error e) := by
    rw [readWord, run_read_bind, ← Machine.operandWord]
    cases machine.operandWord address <;> rfl
  rcases i with ⟨m, operand⟩
  cases m with
  | jmp => exact reading operand fun w machine => machine.withControl w
  | jrp => exact reading operand _
  | ldn => exact reading operand _
  | sto =>
      have replacing : (perform ⟨.sto, operand⟩).run machine =
          (writeWord operand machine.registers.accumulator).run machine := rfl
      rw [replacing, run_writeWord, Machine.execute]
      cases machine.store.set operand machine.registers.accumulator <;> rfl
  | sub => exact reading operand _
  | cmp => rfl
  | stp => rfl
  | num => rfl

theorem run_executeAt (address : Nat) (machine : Machine) :
    (executeAt address).run machine =
      match machine.executeAt address with
      | .ok (i, after) =>
          (after.recorded ⟨address, i.mnemonic, i.operand⟩, .ok ⟨address, i.mnemonic, i.operand⟩)
      | .error e => (machine, .error e) := by
  rw [executeAt, readWord, run_read_bind, Machine.executeAt, Machine.instructionAt,
    Machine.operandWord]
  cases (machine.store.get address).mapError MachineError.store with
  | error e => rfl
  | ok w =>
      simp only [run_read_bind]
      cases (machine.model.decode w).mapError MachineError.decode with
      | error e => rfl
      | ok i =>
          have performed := run_perform i machine
          cases executed : machine.execute i with
          | error e =>
              rw [executed] at performed
              simp only [executed, Except.map]
              exact run_bind_of_error performed
          | ok after =>
              rw [executed] at performed
              simp only [executed, Except.map]
              exact run_bind_of_ok performed

/-- A cycle in place is the cycle that the machine executes. -/
theorem run_cycle (machine : Machine) : cycle.run machine = machine.step := by
  have rest : cycle.run machine = (executeAt machine.fetchAddress).run machine.advanced := rfl
  rw [rest, run_executeAt, Machine.step]
  cases machine.advanced.executeAt machine.fetchAddress <;> rfl

end Routine

namespace Machine

/-! ## What a failing cycle leaves -/

/-- A machine is as it was before, apart from its control instruction, which is on the
next address of the store and as wide as it was. -/
structure OnlyFetched (before after : Machine) : Prop where
  model_eq : after.model = before.model
  accumulator_eq : after.registers.accumulator = before.registers.accumulator
  store_eq : after.store = before.store
  controls_eq : after.controls = before.controls
  cycles_eq : after.cycles = before.cycles
  last_eq : after.last = before.last
  control_eq : after.registers.control =
    Word.ofNat ((before.registers.controlValue + 1) % before.model.wordCount)
      before.registers.control.length
  control_length_eq : after.registers.control.length = before.registers.control.length

theorem onlyFetched_advanced (machine : Machine) : machine.OnlyFetched machine.advanced where
  model_eq := rfl
  accumulator_eq := rfl
  store_eq := rfl
  controls_eq := rfl
  cycles_eq := rfl
  last_eq := rfl
  control_eq := by
    rw [← fetchAddress_eq]
    rfl
  control_length_eq := Word.length_ofNat _ _

/-- A cycle that fails leaves its fetch behind and nothing else.  This is so of every
machine, also of one out of shape, and although the cycle writes in place: what fails
in it fails before anything else is written.  An instruction that fails on its own
leaves nothing at all. -/
theorem failing_cycle_only_fetches (machine : Machine) :
    Routine.cycle.run machine = machine.step ∧
      (∀ i after e, (Routine.perform i).run machine = (after, .error e) → after = machine) ∧
      (∀ e, machine.step.2 = .error e ↔ machine.Mishap e) ∧
      ∀ after e, machine.step = (after, .error e) → machine.OnlyFetched after := by
  refine ⟨Routine.run_cycle machine, ?_, machine.step_error_iff, ?_⟩
  · intro i after e failed
    exact Routine.failsUntouched_perform i machine after e failed
  · intro after e failed
    rw [← Routine.run_cycle] at failed
    rw [Routine.eq_advanced_of_cycle_error failed]
    exact machine.onlyFetched_advanced

/-- A machine of 1948 with registers of seven and of three bits and a store that ends
with the instruction to store at address one. -/
def outOfShape : Machine :=
  { Machine.initial .smallScale with
    registers := ⟨Word.ofNat 4 7, Word.ofNat 5 3⟩
    store := ⟨32, List.replicate 5 (Word.zero 32) ++
      [Model.smallScale.instructionWord 1 ⟨[true, true, false]⟩]⟩ }

/-- The three bits are not stored, and the next fetch is from behind the store.  Both
cycles fail, and after both the control instruction alone has moved. -/
theorem failing_cycle_only_fetches_outOfShape :
    ∃ after later, outOfShape.step = (after, .error (.store (.widthMismatch 32 3))) ∧
      outOfShape.OnlyFetched after ∧ after.registers.control = Word.ofNat 5 7 ∧
      after.step = (later, .error (.store (.addressOutOfRange 6 6))) ∧
      after.OnlyFetched later ∧ (Routine.perform ⟨.num, 0⟩).run after =
        (after, .error (.notExecutable .num)) := by
  have first := failing_cycle_only_fetches outOfShape
  have second := failing_cycle_only_fetches outOfShape.advanced
  refine ⟨outOfShape.advanced, _, rfl, first.2.2.2 _ _ rfl, rfl, rfl, second.2.2.2 _ _ rfl, rfl⟩

end Machine
end SmallScale
