import Mathlib.Data.List.Find
import SmallScale.Proofs.Machine.Shape

namespace SmallScale

/-!
# The machine of integers

The machine can be described without words.  Its control instruction is a
natural number, its accumulator and the contents of its store are integers, and
one cycle is arithmetic: fields are quotients and remainders, results are
remainders modulo `2 ^ w` on words of `w` bits.  This module defines that machine
and proves that a cycle of the machine of words is a cycle of it.

The correspondence reads a machine of words as integers.  For a machine in shape
no bit is lost by this, because words of one length with the same signed value
are the same word.
-/

/-- A machine whose registers and store hold integers.  The control instruction
is unsigned, the other numbers are signed. -/
structure IntegerMachine where
  control : Nat
  accumulator : Int
  numbers : List Int
  controls : Controls
  cycles : Nat
  last : Option Executed
deriving DecidableEq

/-- The contents of a field of an unsigned number. -/
def BitField.contents (field : BitField) (value : Nat) : Nat :=
  value / 2 ^ field.start % 2 ^ field.length

/-- The mnemonic declared for an opcode, where opcodes are unsigned numbers. -/
def Model.mnemonicOfNumber? (model : Model) (opcode : Nat) : Option Mnemonic :=
  (model.opcodes.find? fun row => row.pattern.unsigned == opcode).map Opcode.mnemonic

namespace IntegerMachine

variable (model : Model) (machine : IntegerMachine)

/-- The number at an address of the store. -/
def number (address : Nat) : Int :=
  machine.numbers.getD address 0

/-- The number at an address, read unsigned on the words of the model. -/
def unsignedNumber (address : Nat) : Nat :=
  (machine.number address % 2 ^ model.wordLength).toNat

/-- The representative of an integer modulo `2 ^ w` from `-2 ^ (w - 1)` up to but
without `2 ^ (w - 1)`, on words of `w` bits. -/
def represent (value : Int) : Int :=
  let remainder := value % 2 ^ model.wordLength
  if remainder < 2 ^ (model.wordLength - 1) then remainder else remainder - 2 ^ model.wordLength

/-- The control instruction after an address of the store, on the words of the
model. -/
def moveTo (address : Nat) : IntegerMachine :=
  { machine with control := address % 2 ^ model.wordLength }

/-- What an instruction does once the control instruction is advanced. -/
def perform (operand : Nat) : Mnemonic → IntegerMachine
  | .jmp => { machine with control := machine.unsignedNumber model operand }
  | .jrp =>
      { machine with
        control := ((machine.control + machine.number operand) % 2 ^ model.wordLength).toNat }
  | .ldn => { machine with accumulator := represent model (-machine.number operand) }
  | .sto => { machine with numbers := machine.numbers.set operand machine.accumulator }
  | .sub =>
      { machine with
        accumulator := represent model (machine.accumulator - machine.number operand) }
  | .cmp =>
      if machine.accumulator < 0 then
        machine.moveTo model ((machine.control + 1) % model.wordCount)
      else machine
  | .stp => { machine with controls := machine.controls.setRunning false }
  | .num => machine

/-- One cycle: fetch, decode, execute, record. -/
def step : IntegerMachine × Except MachineError Executed :=
  let address := (machine.control + 1) % model.wordCount
  let fetched := machine.moveTo model address
  let opcode := model.opcode.contents (machine.unsignedNumber model address)
  let operand := model.address.contents (machine.unsignedNumber model address)
  match model.mnemonicOfNumber? opcode with
  | none =>
      (fetched, .error (.decode (.unknownOpcode (Word.ofNat opcode model.opcode.length))))
  | some m =>
      if m.usesStore ∧ model.wordCount ≤ operand then
        (fetched, .error (.store (.addressOutOfRange operand model.wordCount)))
      else
        let executed := ⟨address, m, operand⟩
        ({ fetched.perform model operand m with
            cycles := machine.cycles + 1
            last := some executed },
          .ok executed)

theorem represent_eq_bmod (value : Int) :
    represent model value = Int.bmod value (2 ^ model.wordLength) := by
  have half : (2 : Int) ^ model.wordLength = 2 * 2 ^ (model.wordLength - 1) := by
    have positive := model.valid.wordLength_pos
    rw [← Int.pow_succ']
    congr 1
    omega
  have cast : ((2 ^ model.wordLength : Nat) : Int) = 2 ^ model.wordLength :=
    Int.natCast_pow 2 model.wordLength
  rw [Int.bmod_def, cast]
  simp only [represent]
  split <;> split <;> omega

end IntegerMachine

namespace Machine

/-- The machine read as integers. -/
def integers (machine : Machine) : IntegerMachine where
  control := machine.registers.controlValue
  accumulator := machine.registers.accumulatorValue
  numbers := machine.store.words.map Word.signed
  controls := machine.controls
  cycles := machine.cycles
  last := machine.last

variable {machine after : Machine} {address operand : Nat} {w : Word} {m : Mnemonic}

theorem words_eq_of_map_signed_eq {wordLength : Nat} (short : wordLength ≤ 64)
    {first second : List Word} (firstWide : ∀ w ∈ first, w.length = wordLength)
    (secondWide : ∀ w ∈ second, w.length = wordLength)
    (same : first.map Word.signed = second.map Word.signed) : first = second := by
  induction first generalizing second with
  | nil => exact (List.map_eq_nil_iff.mp same.symm).symm
  | cons w rest ih =>
      cases second with
      | nil => cases same
      | cons other others =>
          rw [List.map_cons, List.map_cons, List.cons.injEq] at same
          rw [List.forall_mem_cons] at firstWide secondWide
          have sameWord : w = other := by
            apply Word.signed_injective (firstWide.1.trans secondWide.1.symm) _ same.1
            exact firstWide.1 ▸ short
          rw [sameWord, ih firstWide.2 secondWide.2 same.2]

/-- Machines in shape that read as the same integers are the same machine. -/
theorem integers_injective {first second : Machine} (firstShaped : first.Shaped)
    (secondShaped : second.Shaped) (sameModel : first.model = second.model)
    (same : first.integers = second.integers) : first = second := by
  rw [integers, integers, IntegerMachine.mk.injEq] at same
  rcases same with ⟨control, accumulator, numbers, controls, cycles, last⟩
  have sameControl : first.registers.control = second.registers.control := by
    apply Word.unsigned_injective _ firstShaped.control_le control
    rw [firstShaped.control_length, secondShaped.control_length, sameModel]
  have sameAccumulator : first.registers.accumulator = second.registers.accumulator := by
    apply Word.signed_injective _ firstShaped.accumulator_le accumulator
    rw [firstShaped.accumulator_length, secondShaped.accumulator_length, sameModel]
  have sameWords : first.store.words = second.store.words := by
    apply words_eq_of_map_signed_eq first.model.wordLength_le firstShaped.store.length_of_mem _
      numbers
    exact sameModel ▸ secondShaped.store.length_of_mem
  have sameWordLength : first.store.wordLength = second.store.wordLength := by
    rw [firstShaped.store.wordLength_eq, secondShaped.store.wordLength_eq, sameModel]
  rcases first with ⟨_, ⟨_, _⟩, ⟨_, _⟩, _, _, _⟩
  rcases second with ⟨_, ⟨_, _⟩, ⟨_, _⟩, _, _, _⟩
  simp_all

/-! ## Numbers and fields -/

theorem number_integers (stored : machine.store.get address = .ok w) :
    machine.integers.number address = w.signed := by
  have found : (machine.store.words.map Word.signed)[address]? = some w.signed := by
    rw [List.getElem?_map, Store.get_eq_ok_iff.mp stored]
    rfl
  rw [IntegerMachine.number, integers, List.getD_eq_getElem?_getD, found]
  rfl

theorem unsignedNumber_integers (shaped : machine.Shaped)
    (stored : machine.store.get address = .ok w) :
    machine.integers.unsignedNumber machine.model address = w.unsigned := by
  have wide := shaped.store.length_of_get stored
  have remainder : (w.unsigned : Int) = w.signed % 2 ^ machine.model.wordLength := by
    simpa [wide] using Word.unsigned_eq_emod (w := w) (wide ▸ machine.model.wordLength_le)
  rw [IntegerMachine.unsignedNumber, number_integers stored, ← remainder, Int.toNat_natCast]

theorem contents_unsigned {field : BitField} (short : w.length ≤ 64) :
    field.contents w.unsigned = (w.extract field.start field.length).unsigned :=
  (Word.unsigned_extract short field.start field.length).symm

theorem mnemonicOfNumber?_unsigned {model : Model} {pattern : Word}
    (wide : pattern.length = model.opcode.length) :
    model.mnemonicOfNumber? pattern.unsigned = model.mnemonicOf? pattern := by
  have short := model.opcode_length_le
  rw [Model.mnemonicOfNumber?, Model.mnemonicOf?]
  congr 1
  apply List.find?_congr
  intro row member
  have rowWide := model.valid.patterns_wide row member
  rw [Bool.eq_iff_iff, beq_iff_eq, beq_iff_eq]
  constructor
  · intro same
    exact Word.unsigned_injective (rowWide.trans wide.symm) (rowWide ▸ short) same
  · intro same
    rw [same]

/-! ## Single instructions -/

theorem integers_advanced (shaped : machine.Shaped) :
    machine.advanced.integers =
      machine.integers.moveTo machine.model
        ((machine.integers.control + 1) % machine.model.wordCount) := by
  have control := shaped.controlValue_advanced
  rw [fetchAddress_eq] at control
  simp only [IntegerMachine.moveTo, integers]
  rw [control]
  rfl

theorem integers_effect (shaped : machine.Shaped) {i : Instruction}
    (effect : Effect machine i after) :
    after.integers = machine.integers.perform machine.model i.operand i.mnemonic := by
  have short := machine.model.wordLength_le
  cases effect with
  | @jmp address w stored =>
      have number := unsignedNumber_integers shaped stored
      simp only [IntegerMachine.perform, number]
      rfl
  | @jrp address w stored =>
      have offset := number_integers stored
      have target : ((machine.integers.control : Int) + w.signed) % 2 ^ machine.model.wordLength =
          (Word.ofInt (machine.registers.control.signed + w.signed)
            machine.model.wordLength).unsigned := by
        have control : (machine.integers.control : Int) =
            machine.registers.control.signed % (2 ^ machine.model.wordLength : Nat) :=
          shaped.control_length ▸ Word.unsigned_eq_emod shaped.control_le
        rw [control, Word.unsigned_ofInt _ short, Int.natCast_pow]
        exact Int.emod_add_emod _ _ _
      simp only [IntegerMachine.perform, offset, target, Int.toNat_natCast]
      rfl
  | @ldn address w stored =>
      have value := number_integers stored
      have written := Word.signed_ofInt (-w.signed) short
      simp only [IntegerMachine.perform, value, IntegerMachine.represent_eq_bmod, ← written]
      rfl
  | @sto address store replaced =>
      rcases Store.set_eq_ok_iff.mp replaced with ⟨_, _, rfl⟩
      simp only [IntegerMachine.perform, integers, withStore, List.map_set]
      rfl
  | @sub address w stored =>
      have value := number_integers stored
      have written := Word.signed_ofInt (machine.registers.accumulator.signed - w.signed) short
      simp only [IntegerMachine.perform, value, IntegerMachine.represent_eq_bmod]
      change _ = { machine.integers with
        accumulator := Int.bmod (machine.registers.accumulator.signed - w.signed)
          (2 ^ machine.model.wordLength) }
      rw [← written]
      rfl
  | skip negative =>
      have below : machine.integers.accumulator < 0 := negative
      simp only [IntegerMachine.perform, if_pos below]
      exact integers_advanced shaped
  | stay nonnegative =>
      have notBelow : ¬ machine.integers.accumulator < 0 := nonnegative
      simp only [IntegerMachine.perform, if_neg notBelow]
  | stp => rfl

/-! ## Whole cycles -/

theorem integers_recorded (machine : Machine) (executed : Executed) :
    (machine.recorded executed).integers =
      { machine.integers with cycles := machine.cycles + 1, last := some executed } :=
  rfl

theorem step_integers (shaped : machine.Shaped) :
    (machine.step.1.integers, machine.step.2) = machine.integers.step machine.model := by
  rcases shaped.exists_fetched with ⟨w, stored⟩
  have wide := shaped.store.length_of_get stored
  have short : w.length ≤ 64 := wide ▸ machine.model.wordLength_le
  have needed : machine.model.neededBits ≤ w.length := wide ▸ machine.model.neededBits_le
  have number : machine.integers.unsignedNumber machine.model
      ((machine.integers.control + 1) % machine.model.wordCount) = w.unsigned := by
    apply unsignedNumber_integers shaped
    rwa [fetchAddress_eq] at stored
  have opcodeWide : (machine.model.opcodeField w).length = machine.model.opcode.length :=
    Word.length_extract (wide ▸ machine.model.opcode_inside)
  have opcode : machine.model.opcode.contents w.unsigned = (machine.model.opcodeField w).unsigned :=
    contents_unsigned short
  have operand : machine.model.address.contents w.unsigned =
      (machine.model.addressField w).unsigned := contents_unsigned short
  simp only [IntegerMachine.step, number, opcode, operand, mnemonicOfNumber?_unsigned opcodeWide]
  cases declared : machine.model.mnemonicOf? (machine.model.opcodeField w) with
  | none =>
      have faulty := step_of_decode_error stored (Model.decode_of_undeclared needed declared)
      have pattern : Word.ofNat (machine.model.opcodeField w).unsigned
          machine.model.opcode.length = machine.model.opcodeField w := by
        rw [← opcodeWide]
        apply Word.ofNat_unsigned
        exact opcodeWide ▸ machine.model.opcode_length_le
      rw [faulty, pattern, integers_advanced shaped]
  | some m =>
      have row := Model.mnemonicOf?_eq_some_iff.mp declared
      have decoded := Model.decode_of_row needed row
      by_cases outside : m.usesStore = true ∧
          machine.model.wordCount ≤ (machine.model.addressField w).unsigned
      · have faulty := step_of_execute_error stored decoded
          (execute_of_outside shaped.advanced outside.1 outside.2)
        simp only [if_pos outside, faulty, integers_advanced shaped]
        rfl
      · have executable := Model.ne_num_of_row row
        rcases exists_effect shaped.advanced (i := ⟨m, _⟩) executable outside with ⟨done, effect⟩
        have stepped := step_eq_ok_iff.mpr ⟨w, _, done, stored, decoded, effect, rfl, rfl⟩
        have performed := integers_effect shaped.advanced effect
        have counted : done.cycles = machine.advanced.cycles := cycles_of_effect effect
        have sameAddress : machine.fetchAddress =
            (machine.integers.control + 1) % machine.model.wordCount := machine.fetchAddress_eq
        rw [integers_advanced shaped] at performed
        simp only [if_neg outside, stepped, sameAddress]
        congr 1
        rw [integers_recorded, performed, counted]
        rfl

/-- A cycle of a machine in shape is a cycle of the machine of integers that it
reads as, with the same outcome.  The machine stays in shape and keeps its model,
so the integers determine the machine after the cycle bit for bit. -/
theorem step_reads_as_integers (machine : Machine) (shaped : machine.Shaped) :
    (machine.step.1.integers, machine.step.2) = machine.integers.step machine.model ∧
      machine.step.1.Shaped ∧ machine.step.1.model = machine.model ∧
      ∀ other : Machine, other.Shaped → other.model = machine.model →
        other.integers = (machine.integers.step machine.model).1 → other = machine.step.1 := by
  have reads := step_integers shaped
  refine ⟨reads, shaped.step, machine.model_step, ?_⟩
  intro other otherShaped sameModel same
  apply integers_injective otherShaped shaped.step (sameModel.trans machine.model_step.symm)
  rw [same, ← reads]

/-- The machine of 1948 about to wrap both registers: the fetch passes the end
of the store and finds `SUB 1` under its second pattern, the accumulator holds
the lowest number and the word at address 1 is one. -/
def atBothLimits : Machine :=
  { initial .smallScale with
    registers := ⟨Word.ofNat 31 32, Word.ofInt (-2147483648) 32⟩
    store := Program.imageOf
      [Model.smallScale.instructionWord 1 ⟨[true, false, true]⟩, Word.ofInt 1 32]
      (Store.empty 32 32) }

theorem step_reads_as_integers_atBothLimits :
    atBothLimits.Shaped ∧
      (atBothLimits.step.1.integers, atBothLimits.step.2) =
        atBothLimits.integers.step .smallScale ∧
      atBothLimits.step.1.registers = ⟨Word.ofNat 0 32, Word.ofInt 2147483647 32⟩ ∧
      atBothLimits.step.2 = .ok ⟨0, .sub, 1⟩ := by
  have shaped : atBothLimits.Shaped := by
    refine ⟨by decide, by decide, by decide, by decide, ?_⟩
    decide
  refine ⟨shaped, (step_reads_as_integers atBothLimits shaped).1, ?_, ?_⟩
  · decide
  · decide

end Machine
end SmallScale
