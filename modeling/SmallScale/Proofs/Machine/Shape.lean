import SmallScale.Proofs.Instruction.Coding
import SmallScale.Proofs.Machine.Effect
import SmallScale.Proofs.Store.Shape

namespace SmallScale

/-!
# Machines in shape

Nothing in the type of a machine ties the widths of its registers and its store
to its model.  A machine is in shape when they agree.  A new machine is, and a
cycle keeps it so, whether it succeeds or fails.  In such a machine an instruction
fails only when it uses a number outside the store.
-/

/-- The instructions that use the number at their operand. -/
def Mnemonic.usesStore : Mnemonic → Bool
  | .jmp | .jrp | .ldn | .sto | .sub => true
  | .cmp | .stp | .num => false

namespace Machine

/-- Registers and store have the sizes that the model asks for. -/
structure Shaped (machine : Machine) : Prop where
  control_length : machine.registers.control.length = machine.model.wordLength
  accumulator_length : machine.registers.accumulator.length = machine.model.wordLength
  store : machine.store.Shaped machine.model.wordLength machine.model.wordCount

theorem shaped_initial (model : Model) : (initial model).Shaped where
  control_length := Word.length_zero model.wordLength
  accumulator_length := Word.length_zero model.wordLength
  store := Store.shaped_empty model.wordLength model.wordCount

variable {machine after : Machine}

namespace Shaped

theorem control_le (shaped : machine.Shaped) : machine.registers.control.length ≤ 64 :=
  shaped.control_length ▸ machine.model.wordLength_le

theorem accumulator_le (shaped : machine.Shaped) : machine.registers.accumulator.length ≤ 64 :=
  shaped.accumulator_length ▸ machine.model.wordLength_le

theorem withControl (shaped : machine.Shaped) {w : Word}
    (wide : w.length = machine.model.wordLength) : (machine.withControl w).Shaped :=
  ⟨wide, shaped.accumulator_length, shaped.store⟩

theorem withAccumulator (shaped : machine.Shaped) {w : Word}
    (wide : w.length = machine.model.wordLength) : (machine.withAccumulator w).Shaped :=
  ⟨shaped.control_length, wide, shaped.store⟩

theorem withStore (shaped : machine.Shaped) {store : Store}
    (fits : store.Shaped machine.model.wordLength machine.model.wordCount) :
    (machine.withStore store).Shaped :=
  ⟨shaped.control_length, shaped.accumulator_length, fits⟩

theorem act (shaped : machine.Shaped) (action : ControlAction) : (machine.act action).Shaped :=
  ⟨shaped.control_length, shaped.accumulator_length, shaped.store⟩

theorem advanced (shaped : machine.Shaped) : machine.advanced.Shaped :=
  ⟨(Word.length_ofNat _ _).trans shaped.control_length, shaped.accumulator_length, shaped.store⟩

theorem clearStore (shaped : machine.Shaped) : machine.clearStore.Shaped :=
  shaped.withStore shaped.store.cleared

theorem clearRegisters (shaped : machine.Shaped) : machine.clearRegisters.Shaped :=
  ⟨(Word.length_zero _).trans shaped.control_length,
    (Word.length_zero _).trans shaped.accumulator_length, shaped.store⟩

end Shaped

theorem fetchAddress_eq (machine : Machine) :
    machine.fetchAddress = (machine.registers.controlValue + 1) % machine.model.wordCount := by
  have positive := machine.model.wordCount_pos
  rw [fetchAddress, Registers.nextAddress, Nat.max_eq_left positive]

theorem fetchAddress_lt (machine : Machine) : machine.fetchAddress < machine.model.wordCount := by
  rw [fetchAddress_eq]
  exact Nat.mod_lt _ machine.model.wordCount_pos

/-- A machine in shape always finds a word to fetch. -/
theorem Shaped.exists_fetched (shaped : machine.Shaped) :
    ∃ w, machine.store.get machine.fetchAddress = .ok w :=
  Store.exists_get_of_lt (shaped.store.wordCount_eq ▸ machine.fetchAddress_lt)

theorem Shaped.controlValue_advanced (shaped : machine.Shaped) :
    machine.advanced.registers.controlValue = machine.fetchAddress % 2 ^ machine.model.wordLength := by
  rw [← shaped.control_length]
  exact Word.unsigned_ofNat machine.fetchAddress shaped.control_le

theorem model_of_effect {i : Instruction} (effect : Effect machine i after) :
    after.model = machine.model := by
  cases effect <;> rfl

theorem cycles_of_effect {i : Instruction} (effect : Effect machine i after) :
    after.cycles = machine.cycles := by
  cases effect <;> rfl

/-- Instructions keep a machine in shape. -/
theorem Shaped.effect (shaped : machine.Shaped) {i : Instruction}
    (effect : Effect machine i after) : after.Shaped := by
  cases effect with
  | jmp stored => exact shaped.withControl (shaped.store.length_of_get stored)
  | jrp stored => exact shaped.withControl (Word.length_ofInt _ _)
  | ldn stored => exact shaped.withAccumulator (Word.length_ofInt _ _)
  | sto replaced => exact shaped.withStore (shaped.store.set replaced)
  | sub stored => exact shaped.withAccumulator (Word.length_ofInt _ _)
  | skip negative => exact shaped.advanced
  | stay nonnegative => exact shaped
  | stp => exact shaped.act _

theorem model_step (machine : Machine) : machine.step.1.model = machine.model := by
  cases result : machine.step with
  | mk after outcome =>
      cases outcome with
      | error e => rw [eq_advanced_of_step_error result]; rfl
      | ok executed =>
          rcases step_eq_ok_iff.mp result with ⟨w, i, done, _, _, effect, _, rfl⟩
          have kept : done.model = machine.advanced.model := model_of_effect effect
          exact kept

/-- A cycle keeps a machine in shape. -/
theorem Shaped.step (shaped : machine.Shaped) : machine.step.1.Shaped := by
  cases result : machine.step with
  | mk after outcome =>
      cases outcome with
      | error e => exact eq_advanced_of_step_error result ▸ shaped.advanced
      | ok executed =>
          rcases step_eq_ok_iff.mp result with ⟨w, i, done, _, _, effect, _, rfl⟩
          have inShape := shaped.advanced.effect effect
          exact ⟨inShape.control_length, inShape.accumulator_length, inShape.store⟩

/-! ## Instructions with and without an effect -/

/-- An instruction of the table has an effect where its number is in the store and,
for a store operation, the accumulator is as wide as the words there. -/
theorem exists_effect_of_access {i : Instruction} (executable : i.mnemonic ≠ .num)
    (inside : i.mnemonic.usesStore = true → i.operand < machine.store.wordCount)
    (wide : i.mnemonic = .sto →
      machine.registers.accumulator.length = machine.store.wordLength) :
    ∃ done, Effect machine i done := by
  rcases i with ⟨m, operand⟩
  cases m with
  | jmp =>
      rcases Store.exists_get_of_lt (inside rfl) with ⟨w, found⟩
      exact ⟨_, .jmp found⟩
  | jrp =>
      rcases Store.exists_get_of_lt (inside rfl) with ⟨w, found⟩
      exact ⟨_, .jrp found⟩
  | ldn =>
      rcases Store.exists_get_of_lt (inside rfl) with ⟨w, found⟩
      exact ⟨_, .ldn found⟩
  | sto => exact ⟨_, .sto (Store.set_eq_ok_iff.mpr ⟨wide rfl, inside rfl, rfl⟩)⟩
  | sub =>
      rcases Store.exists_get_of_lt (inside rfl) with ⟨w, found⟩
      exact ⟨_, .sub found⟩
  | cmp =>
      by_cases negative : machine.registers.accumulatorValue < 0
      · exact ⟨_, .skip negative⟩
      · exact ⟨_, .stay negative⟩
  | stp => exact ⟨_, .stp⟩
  | num => exact (executable rfl).elim

/-- In a machine in shape an instruction of the table has an effect unless it
uses a number outside the store. -/
theorem exists_effect (shaped : machine.Shaped) {i : Instruction} (executable : i.mnemonic ≠ .num)
    (inside : ¬ (i.mnemonic.usesStore = true ∧ machine.model.wordCount ≤ i.operand)) :
    ∃ done, Effect machine i done := by
  apply exists_effect_of_access executable
  · intro uses
    rw [shaped.store.wordCount_eq]
    exact Nat.lt_of_not_le fun outside => inside ⟨uses, outside⟩
  · intro _
    exact shaped.accumulator_length.trans shaped.store.wordLength_eq.symm

/-- An instruction that uses a number outside the store is refused; a store operation
looks at the width of the accumulator first. -/
theorem execute_of_le {m : Mnemonic} {operand : Nat} (uses : m.usesStore = true)
    (outside : machine.store.wordCount ≤ operand)
    (wide : m = .sto → machine.registers.accumulator.length = machine.store.wordLength) :
    machine.execute ⟨m, operand⟩ =
      .error (.store (.addressOutOfRange operand machine.store.wordCount)) := by
  have missing : machine.operandWord operand =
      .error (.store (.addressOutOfRange operand machine.store.wordCount)) := by
    rw [operandWord, Store.get_of_le outside]
    rfl
  cases m with
  | jmp => simp only [execute, missing, Except.map]
  | jrp => simp only [execute, missing, Except.map]
  | ldn => simp only [execute, missing, Except.map]
  | sub => simp only [execute, missing, Except.map]
  | sto =>
      have refused : machine.store.set operand machine.registers.accumulator =
          .error (.addressOutOfRange operand machine.store.wordCount) := by
        rw [Store.set, if_neg (not_not.mpr (wide rfl)), if_neg (Nat.not_lt_of_le outside)]
      simp only [execute, refused, mapError_error, Except.map]
  | cmp => cases uses
  | stp => cases uses
  | num => cases uses

theorem execute_of_outside (shaped : machine.Shaped) {m : Mnemonic} {operand : Nat}
    (uses : m.usesStore = true)
    (outside : machine.model.wordCount ≤ operand) :
    machine.execute ⟨m, operand⟩ =
      .error (.store (.addressOutOfRange operand machine.model.wordCount)) := by
  rw [← shaped.store.wordCount_eq] at outside ⊢
  exact execute_of_le uses outside fun _ =>
    shaped.accumulator_length.trans shaped.store.wordLength_eq.symm

end Machine
end SmallScale
