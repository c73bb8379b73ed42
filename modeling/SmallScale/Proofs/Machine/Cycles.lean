import SmallScale.Proofs.Machine.History

namespace SmallScale
namespace Machine

/-!
# Cycles one after the other

Runs of every kind do the same thing over and over: they execute a cycle.  Here
the cycles are numbered, and a run is later described by how many of them it
executes.  What a cycle computes does not depend on the controls, so machines that
differ in their controls only go through the same computation.
-/

/-- The machine after `count` cycles, whether they succeed or fail. -/
def stepped (machine : Machine) : Nat → Machine
  | 0 => machine
  | count + 1 => machine.step.1.stepped count

/-- The outcome of the cycle that follows `index` cycles. -/
def attempt (machine : Machine) (index : Nat) : Outcome :=
  (machine.stepped index).step.2

/-- A cycle ends a free run if it fails or executes a halt. -/
def EndsRun (outcome : Outcome) : Prop :=
  ∀ executed, outcome = .ok executed → executed.mnemonic = .stp

/-- The first `count` cycles succeed and none of them executes a halt. -/
def RunsFreely (machine : Machine) (count : Nat) : Prop :=
  ∀ index < count, ¬ EndsRun (machine.attempt index)

variable {machine first second third : Machine} {count index : Nat} {e : MachineError}
  {executed : Executed} {outcome : Outcome}

theorem step_eq_pair (attempted : machine.step.2 = outcome) :
    machine.step = (machine.step.1, outcome) :=
  Prod.ext rfl attempted

theorem stepped_succ (machine : Machine) (count : Nat) :
    machine.stepped (count + 1) = (machine.stepped count).step.1 := by
  induction count generalizing machine with
  | zero => rfl
  | succ count ih => exact ih machine.step.1

theorem stepped_add (machine : Machine) (count more : Nat) :
    machine.stepped (count + more) = (machine.stepped count).stepped more := by
  induction count generalizing machine with
  | zero => rw [Nat.zero_add, stepped]
  | succ count ih =>
      rw [Nat.succ_add]
      exact ih machine.step.1

theorem attempt_add (machine : Machine) (count index : Nat) :
    machine.attempt (count + index) = (machine.stepped count).attempt index := by
  rw [attempt, stepped_add, attempt]

theorem endsRun_error : EndsRun (.error e) :=
  nofun

theorem endsRun_ok_iff : EndsRun (.ok executed) ↔ executed.mnemonic = .stp := by
  constructor
  · intro ends
    exact ends executed rfl
  · rintro isHalt other same
    cases same
    exact isHalt

instance (outcome : Outcome) : Decidable (EndsRun outcome) :=
  match outcome with
  | .error _ => .isTrue endsRun_error
  | .ok executed => decidable_of_iff (executed.mnemonic = .stp) endsRun_ok_iff.symm

theorem exists_executed_of_not_endsRun (goesOn : ¬ EndsRun outcome) :
    ∃ executed, outcome = .ok executed ∧ executed.mnemonic ≠ .stp := by
  cases outcome with
  | error e => exact (goesOn endsRun_error).elim
  | ok executed => exact ⟨executed, rfl, fun isHalt => goesOn (endsRun_ok_iff.mpr isHalt)⟩

/-! ## Free runs -/

theorem runsFreely_zero (machine : Machine) : machine.RunsFreely 0 :=
  nofun

theorem runsFreely_succ_iff :
    machine.RunsFreely (count + 1) ↔ machine.RunsFreely count ∧ ¬ EndsRun (machine.attempt count) :=
  Nat.forall_lt_succ_right

/-- The first cycle of a free run and the others. -/
theorem runsFreely_succ_iff_left :
    machine.RunsFreely (count + 1) ↔
      ¬ EndsRun machine.step.2 ∧ machine.step.1.RunsFreely count :=
  Nat.forall_lt_succ_left

/-- A machine runs freely for as long as it is let, or some cycle ends the run
before. -/
theorem runsFreely_or_ends (machine : Machine) (limit : Nat) :
    machine.RunsFreely limit ∨
      ∃ count < limit, machine.RunsFreely count ∧ EndsRun (machine.attempt count) := by
  induction limit with
  | zero => exact .inl machine.runsFreely_zero
  | succ limit ih =>
      rcases ih with free | ⟨count, inside, free, ends⟩
      · by_cases ends : EndsRun (machine.attempt limit)
        · exact .inr ⟨limit, Nat.lt_succ_self limit, free, ends⟩
        · exact .inl (runsFreely_succ_iff.mpr ⟨free, ends⟩)
      · exact .inr ⟨count, Nat.lt_succ_of_lt inside, free, ends⟩

/-! ## Controls and cycles -/

/-- The controls behind a cycle with this outcome. -/
def controlsAfter (controls : Controls) : Outcome → Controls
  | .ok executed => if executed.mnemonic = .stp then controls.setRunning false else controls
  | .error _ => controls

theorem execute_withControls (machine : Machine) (controls : Controls) (i : Instruction) :
    (machine.withControls controls).execute i =
      (machine.execute i).map fun after =>
        after.withControls (if i.mnemonic = .stp then controls.setRunning false else controls) := by
  rcases i with ⟨m, address⟩
  have readingWord (change : Machine → Word → Machine) :
      ((machine.operandWord address).map fun w => (change machine w).withControls controls) =
        ((machine.operandWord address).map (change machine)).map fun after =>
          after.withControls controls := by
    cases machine.operandWord address <;> rfl
  cases m with
  | jmp => exact readingWord fun here w => here.withControl w
  | jrp =>
      exact readingWord fun here w => here.withControl
        (Word.ofInt (here.registers.control.signed + w.signed) here.model.wordLength)
  | ldn =>
      exact readingWord fun here w => here.withAccumulator
        (Word.ofInt (-w.signed) here.model.wordLength)
  | sto =>
      simp only [execute, withControls]
      cases machine.store.set address machine.registers.accumulator <;> rfl
  | sub =>
      exact readingWord fun here w => here.withAccumulator
        (Word.ofInt (here.registers.accumulator.signed - w.signed) here.model.wordLength)
  | cmp =>
      have skips : (machine.withControls controls).execute ⟨.cmp, address⟩ =
          .ok ((if machine.registers.accumulatorValue < 0 then machine.advanced
            else machine).withControls controls) := by
        by_cases negative : machine.registers.accumulatorValue < 0
        · rw [if_pos negative]
          exact execute_of_effect (.skip negative)
        · rw [if_neg negative]
          exact execute_of_effect (.stay negative)
      exact skips
  | stp => rfl
  | num => rfl

/-- A cycle computes the same whatever the controls are, and changes them only by
executing a halt. -/
theorem step_withControls (machine : Machine) (controls : Controls) :
    (machine.withControls controls).step =
      (machine.step.1.withControls (controlsAfter controls machine.step.2), machine.step.2) := by
  have sameFetch : (machine.withControls controls).advanced.instructionAt
      (machine.withControls controls).fetchAddress =
        machine.advanced.instructionAt machine.fetchAddress := rfl
  have sameAdvance : (machine.withControls controls).advanced =
      machine.advanced.withControls controls := rfl
  unfold step executeAt
  rw [sameFetch]
  cases machine.advanced.instructionAt machine.fetchAddress with
  | error e => rfl
  | ok i =>
      simp only [sameAdvance, execute_withControls]
      cases machine.advanced.execute i <;> rfl

theorem controls_step (machine : Machine) :
    machine.step.1.controls = controlsAfter machine.controls machine.step.2 :=
  congrArg (fun result => result.1.controls) (machine.step_withControls machine.controls)

/-- A cycle writes to no control but the run flag. -/
theorem exists_controls_step (machine : Machine) :
    ∃ running, machine.step.1.controls = machine.controls.setRunning running := by
  rw [controls_step]
  cases machine.step.2 with
  | error e => exact ⟨machine.controls.running, rfl⟩
  | ok executed =>
      by_cases isHalt : executed.mnemonic = .stp
      · exact ⟨false, if_pos isHalt⟩
      · exact ⟨machine.controls.running, if_neg isHalt⟩

/-- A halted machine stays halted, and nothing else in its controls changes. -/
theorem controls_step_of_halted (halted : machine.controls.running = false) :
    machine.step.1.controls = machine.controls := by
  have same : machine.controls.setRunning false = machine.controls := by
    rw [← halted]
    rfl
  rw [controls_step]
  cases machine.step.2 with
  | error e => rfl
  | ok executed => exact (ite_congr rfl (fun _ => same) (fun _ => rfl)).trans (ite_self _)

theorem exists_controls_stepped (machine : Machine) (count : Nat) :
    ∃ running, (machine.stepped count).controls = machine.controls.setRunning running := by
  induction count with
  | zero => exact ⟨machine.controls.running, rfl⟩
  | succ count ih =>
      rcases ih with ⟨before, kept⟩
      rcases (machine.stepped count).exists_controls_step with ⟨running, written⟩
      refine ⟨running, ?_⟩
      rw [stepped_succ, written, kept]
      rfl

/-- The machines hold the same in their registers and stores, have executed equally
many cycles and recorded the same instruction last.  Their controls may differ. -/
structure SameComputation (first second : Machine) : Prop where
  model_eq : first.model = second.model
  registers_eq : first.registers = second.registers
  store_eq : first.store = second.store
  cycles_eq : first.cycles = second.cycles
  last_eq : first.last = second.last

namespace SameComputation

theorem refl (machine : Machine) : SameComputation machine machine :=
  ⟨rfl, rfl, rfl, rfl, rfl⟩

theorem symm (same : SameComputation first second) : SameComputation second first :=
  ⟨same.model_eq.symm, same.registers_eq.symm, same.store_eq.symm, same.cycles_eq.symm,
    same.last_eq.symm⟩

theorem trans (start : SameComputation first second) (rest : SameComputation second third) :
    SameComputation first third :=
  ⟨start.model_eq.trans rest.model_eq, start.registers_eq.trans rest.registers_eq,
    start.store_eq.trans rest.store_eq, start.cycles_eq.trans rest.cycles_eq,
    start.last_eq.trans rest.last_eq⟩

theorem withControls (machine : Machine) (controls : Controls) :
    SameComputation (machine.withControls controls) machine :=
  ⟨rfl, rfl, rfl, rfl, rfl⟩

theorem act (machine : Machine) (action : ControlAction) :
    SameComputation (machine.act action) machine :=
  withControls machine (machine.controls.act action)

theorem eq_withControls (same : SameComputation first second) :
    first = second.withControls first.controls := by
  rcases first with ⟨_, _, _, _, _, _⟩
  rcases same with ⟨rfl, rfl, rfl, rfl, rfl⟩
  rfl

/-- The next cycle computes the same again and has the same outcome. -/
theorem step (same : SameComputation first second) :
    SameComputation first.step.1 second.step.1 ∧ first.step.2 = second.step.2 := by
  rw [same.eq_withControls, step_withControls]
  exact ⟨withControls _ _, rfl⟩

theorem stepped (same : SameComputation first second) (count : Nat) :
    SameComputation (first.stepped count) (second.stepped count) := by
  induction count generalizing first second with
  | zero => exact same
  | succ count ih => exact ih same.step.1

theorem attempt (same : SameComputation first second) (index : Nat) :
    first.attempt index = second.attempt index :=
  (same.stepped index).step.2

theorem runsFreely (same : SameComputation first second) (free : second.RunsFreely count) :
    first.RunsFreely count := by
  intro index inside
  rw [same.attempt]
  exact free index inside

end SameComputation

/-! ## What free runs leave alone -/

theorem controls_stepped (free : machine.RunsFreely count) :
    (machine.stepped count).controls = machine.controls := by
  induction count with
  | zero => rfl
  | succ count ih =>
      rcases runsFreely_succ_iff.mp free with ⟨before, goesOn⟩
      rcases exists_executed_of_not_endsRun goesOn with ⟨executed, succeeded, noHalt⟩
      have kept := (machine.stepped count).controls_step
      rw [← attempt, succeeded, controlsAfter, if_neg noHalt] at kept
      rw [stepped_succ, kept, ih before]

theorem cycles_stepped_succ (succeeded : machine.attempt count = .ok executed) :
    (machine.stepped (count + 1)).cycles = (machine.stepped count).cycles + 1 := by
  have counted := (progress_step (machine.stepped count)).cycles_eq
  rw [← attempt, succeeded] at counted
  rw [stepped_succ, counted]
  rfl

theorem cycles_stepped (free : machine.RunsFreely count) :
    (machine.stepped count).cycles = machine.cycles + count := by
  induction count with
  | zero => rfl
  | succ count ih =>
      rcases runsFreely_succ_iff.mp free with ⟨before, goesOn⟩
      rcases exists_executed_of_not_endsRun goesOn with ⟨executed, succeeded, _⟩
      rw [cycles_stepped_succ succeeded, ih before, Nat.add_assoc]

end Machine
end SmallScale
