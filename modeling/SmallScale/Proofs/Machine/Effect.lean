import SmallScale.Machine

namespace SmallScale
namespace Machine

/-!
# What a cycle does

A cycle that succeeds has decoded the word at the fetch address and had the
effect of one instruction on the machine with its control instruction advanced.
`Effect` lists these effects with what each of them needs.  A cycle that fails
leaves the advanced machine.  Everything that is proved about cycles starts from
this inversion and does not open the definitions of execution again.
-/

/-- The effect of an instruction on a machine whose control instruction is
advanced already. -/
inductive Effect (machine : Machine) : Instruction → Machine → Prop where
  | jmp {address : Nat} {w : Word} (stored : machine.store.get address = .ok w) :
      Effect machine ⟨.jmp, address⟩ (machine.withControl w)
  | jrp {address : Nat} {w : Word} (stored : machine.store.get address = .ok w) :
      Effect machine ⟨.jrp, address⟩
        (machine.withControl
          (Word.ofInt (machine.registers.control.signed + w.signed) machine.model.wordLength))
  | ldn {address : Nat} {w : Word} (stored : machine.store.get address = .ok w) :
      Effect machine ⟨.ldn, address⟩
        (machine.withAccumulator (Word.ofInt (-w.signed) machine.model.wordLength))
  | sto {address : Nat} {store : Store}
      (replaced : machine.store.set address machine.registers.accumulator = .ok store) :
      Effect machine ⟨.sto, address⟩ (machine.withStore store)
  | sub {address : Nat} {w : Word} (stored : machine.store.get address = .ok w) :
      Effect machine ⟨.sub, address⟩
        (machine.withAccumulator
          (Word.ofInt (machine.registers.accumulator.signed - w.signed) machine.model.wordLength))
  | skip {address : Nat} (negative : machine.registers.accumulatorValue < 0) :
      Effect machine ⟨.cmp, address⟩ machine.advanced
  | stay {address : Nat} (nonnegative : ¬ machine.registers.accumulatorValue < 0) :
      Effect machine ⟨.cmp, address⟩ machine
  | stp {address : Nat} : Effect machine ⟨.stp, address⟩ (machine.act (.setRunning false))

@[simp] theorem mapError_ok {α ε δ : Type} (change : ε → δ) (value : α) :
    (Except.ok value).mapError change = .ok value := rfl

@[simp] theorem mapError_error {α ε δ : Type} (change : ε → δ) (e : ε) :
    (Except.error e : Except ε α).mapError change = .error (change e) := rfl

theorem operandWord_eq_ok_iff {machine : Machine} {address : Nat} {w : Word} :
    machine.operandWord address = .ok w ↔ machine.store.get address = .ok w := by
  unfold operandWord
  cases machine.store.get address <;> simp

theorem effect_of_execute {machine after : Machine} {i : Instruction}
    (executed : machine.execute i = .ok after) : Effect machine i after := by
  have ofMap {change : Word → Machine}
      (changed : (machine.operandWord i.operand).map change = .ok after) :
      ∃ w, machine.store.get i.operand = .ok w ∧ change w = after := by
    cases found : machine.operandWord i.operand with
    | error e => rw [found] at changed; cases changed
    | ok w =>
        rw [found] at changed
        exact ⟨w, operandWord_eq_ok_iff.mp found, Except.ok.inj changed⟩
  rcases i with ⟨m, address⟩
  cases m with
  | jmp =>
      rcases ofMap executed with ⟨w, stored, rfl⟩
      exact .jmp stored
  | jrp =>
      rcases ofMap executed with ⟨w, stored, rfl⟩
      exact .jrp stored
  | ldn =>
      rcases ofMap executed with ⟨w, stored, rfl⟩
      exact .ldn stored
  | sto =>
      simp only [execute] at executed
      cases replaced : machine.store.set address machine.registers.accumulator with
      | error e => rw [replaced] at executed; cases executed
      | ok store =>
          rw [replaced] at executed
          cases executed
          exact .sto replaced
  | sub =>
      rcases ofMap executed with ⟨w, stored, rfl⟩
      exact .sub stored
  | cmp =>
      simp only [execute, Except.ok.injEq] at executed
      subst executed
      by_cases negative : machine.registers.accumulatorValue < 0
      · rw [if_pos negative]
        exact .skip negative
      · rw [if_neg negative]
        exact .stay negative
  | stp =>
      cases executed
      exact .stp
  | num => cases executed

theorem execute_of_effect {machine after : Machine} {i : Instruction}
    (effect : Effect machine i after) : machine.execute i = .ok after := by
  cases effect with
  | jmp stored => simp only [execute, operandWord_eq_ok_iff.mpr stored, Except.map]
  | jrp stored => simp only [execute, operandWord_eq_ok_iff.mpr stored, Except.map]
  | ldn stored => simp only [execute, operandWord_eq_ok_iff.mpr stored, Except.map]
  | sto replaced => simp only [execute, replaced, mapError_ok, Except.map]
  | sub stored => simp only [execute, operandWord_eq_ok_iff.mpr stored, Except.map]
  | skip negative => simp only [execute, if_pos negative]
  | stay nonnegative => simp only [execute, if_neg nonnegative]
  | stp => rfl

/-! ## Cycles -/

/-- The machine with one more cycle counted and its instruction recorded. -/
def recorded (machine : Machine) (executed : Executed) : Machine :=
  { machine with cycles := machine.cycles + 1, last := some executed }

theorem instructionAt_eq_ok_iff {machine : Machine} {address : Nat} {i : Instruction} :
    machine.instructionAt address = .ok i ↔
      ∃ w, machine.store.get address = .ok w ∧ machine.model.decode w = .ok i := by
  unfold instructionAt operandWord
  cases found : machine.store.get address with
  | error e => simp
  | ok w =>
      cases decoded : machine.model.decode w <;> simp [decoded]

/-- A cycle succeeds exactly when the word at the fetch address decodes to an
instruction that has an effect. -/
theorem step_eq_ok_iff {machine after : Machine} {executed : Executed} :
    machine.step = (after, .ok executed) ↔
      ∃ w i done, machine.store.get machine.fetchAddress = .ok w ∧
        machine.model.decode w = .ok i ∧ Effect machine.advanced i done ∧
        executed = ⟨machine.fetchAddress, i.mnemonic, i.operand⟩ ∧
        after = done.recorded executed := by
  have fetched {i : Instruction} : machine.advanced.instructionAt machine.fetchAddress = .ok i ↔
      ∃ w, machine.store.get machine.fetchAddress = .ok w ∧ machine.model.decode w = .ok i :=
    instructionAt_eq_ok_iff
  constructor
  · intro stepped
    unfold step executeAt at stepped
    cases found : machine.advanced.instructionAt machine.fetchAddress with
    | error e => rw [found] at stepped; cases stepped
    | ok i =>
        rcases fetched.mp found with ⟨w, stored, decoded⟩
        cases result : machine.advanced.execute i with
        | error e => simp [found, result, Except.map] at stepped
        | ok done =>
            simp only [found, result, Except.map, Prod.mk.injEq, Except.ok.injEq] at stepped
            rcases stepped with ⟨isAfter, isExecuted⟩
            subst isExecuted
            exact ⟨w, i, done, stored, decoded, effect_of_execute result, rfl, isAfter.symm⟩
  · rintro ⟨w, i, done, stored, decoded, effect, rfl, rfl⟩
    have found := fetched.mpr ⟨w, stored, decoded⟩
    simp only [step, executeAt, found, execute_of_effect effect, Except.map, recorded]

/-- A cycle that succeeds records the instruction at the fetch address. -/
theorem recorded_of_step {machine after : Machine} {executed : Executed} {w : Word}
    {i : Instruction} (stored : machine.store.get machine.fetchAddress = .ok w)
    (decoded : machine.model.decode w = .ok i) (stepped : machine.step = (after, .ok executed)) :
    executed = ⟨machine.fetchAddress, i.mnemonic, i.operand⟩ ∧ after.last = some executed := by
  rcases step_eq_ok_iff.mp stepped with
    ⟨fetched, found, done, fetchedStored, fetchedDecoded, _, isExecuted, rfl⟩
  cases stored.symm.trans fetchedStored
  cases decoded.symm.trans fetchedDecoded
  exact ⟨isExecuted, rfl⟩

theorem step_of_decode_error {machine : Machine} {w : Word} {e : DecodeError}
    (stored : machine.store.get machine.fetchAddress = .ok w)
    (undecodable : machine.model.decode w = .error e) :
    machine.step = (machine.advanced, .error (.decode e)) := by
  have fetched : machine.advanced.instructionAt machine.fetchAddress = .error (.decode e) := by
    have word : machine.advanced.operandWord machine.fetchAddress = .ok w :=
      operandWord_eq_ok_iff.mpr stored
    have undecodable' : machine.advanced.model.decode w = .error e := undecodable
    simp only [instructionAt, word, undecodable', mapError_error]
  simp only [step, executeAt, fetched]

theorem step_of_execute_error {machine : Machine} {w : Word} {i : Instruction} {e : MachineError}
    (stored : machine.store.get machine.fetchAddress = .ok w)
    (decoded : machine.model.decode w = .ok i) (failed : machine.advanced.execute i = .error e) :
    machine.step = (machine.advanced, .error e) := by
  have fetched : machine.advanced.instructionAt machine.fetchAddress = .ok i :=
    instructionAt_eq_ok_iff.mpr ⟨w, stored, decoded⟩
  simp only [step, executeAt, fetched, failed, Except.map]

/-- A failing cycle leaves the control instruction advanced and nothing else
changed. -/
theorem eq_advanced_of_step_error {machine after : Machine} {e : MachineError}
    (failed : machine.step = (after, .error e)) : after = machine.advanced := by
  unfold step at failed
  split at failed
  · exact (Prod.mk.inj failed).1.symm
  · simp at failed

end Machine
end SmallScale
