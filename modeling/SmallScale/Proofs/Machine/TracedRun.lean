import SmallScale.Proofs.Machine.BoundedRun

namespace SmallScale
namespace Machine

/-!
# Traced runs

A run of at most so many cycles goes on while the run flag is set and no cycle fails.  Here
this is said once, as a relation, together with the rows of the cycles that succeeded.  A
bounded run and a traced run both go that way to the end.  When a cycle fails they differ in
the run flag alone, which the traced run does not clear.  A bounded run also ends on request,
so the two agree only where nobody asks for the end.
-/

/-- A run of at most so many cycles: it shows these rows, leaves this machine and ends with
this failure, if with any. -/
inductive Runs : Nat → Machine → List TraceRow → Machine → Option MachineError → Prop where
  | spent {machine : Machine} : Runs 0 machine [] machine none
  | halted {limit : Nat} {machine : Machine} (halted : machine.controls.running = false) :
      Runs limit machine [] machine none
  | failed {limit : Nat} {machine after : Machine} {e : MachineError}
      (running : machine.controls.running = true) (failed : machine.step = (after, .error e)) :
      Runs (limit + 1) machine [] after (some e)
  | next {limit : Nat} {machine middle after : Machine} {executed : Executed}
      {rows : List TraceRow} {failure : Option MachineError}
      (running : machine.controls.running = true)
      (stepped : machine.step = (middle, .ok executed))
      (later : Runs limit middle rows after failure) :
      Runs (limit + 1) machine (⟨executed, middle.registers⟩ :: rows) after failure

/-- The end of a bounded run that was made with so many cycles before it. -/
def boundedEnd (count : Nat) (rows : List TraceRow) (after : Machine) :
    Option MachineError → Machine × Except MachineError Nat
  | none => (after, .ok (count + rows.length))
  | some e => (after.act (.setRunning false), .error e)

variable {machine after : Machine} {limit : Nat} {rows : List TraceRow}
  {failure : Option MachineError}

/-- Every machine can be run, with any limit. -/
theorem exists_runs (limit : Nat) (machine : Machine) :
    ∃ rows after failure, Runs limit machine rows after failure := by
  induction limit generalizing machine with
  | zero => exact ⟨[], machine, none, .spent⟩
  | succ limit ih =>
      cases running : machine.controls.running with
      | false => exact ⟨[], machine, none, .halted running⟩
      | true =>
          rcases stepped : machine.step with ⟨middle, e | executed⟩
          · exact ⟨[], middle, some e, .failed running stepped⟩
          · rcases ih middle with ⟨rows, after, failure, later⟩
            exact ⟨_, after, failure, .next running stepped later⟩

/-- Nothing that a cycle does is a request to end. -/
theorem cancelled_step (machine : Machine) :
    machine.step.1.controls.cancelled = machine.controls.cancelled := by
  rcases machine.exists_controls_step with ⟨running, written⟩
  rw [written]
  rfl

theorem Runs.continueTrace (runs : Runs limit machine rows after failure)
    (before : List TraceRow) :
    machine.continueTrace limit before = ⟨after, before.reverse ++ rows, failure⟩ := by
  induction runs generalizing before with
  | spent => simp [Machine.continueTrace]
  | @halted limit machine halted =>
      cases limit <;> simp [Machine.continueTrace, halted]
  | failed running failed => simp [Machine.continueTrace, running, failed]
  | next running stepped later ih => simp [Machine.continueTrace, running, stepped, ih]

theorem Runs.continueRun (runs : Runs limit machine rows after failure)
    (notCancelled : machine.controls.cancelled = false) (count : Nat) :
    Machine.continueRun limit count machine = boundedEnd count rows after failure := by
  induction runs generalizing count with
  | spent => rfl
  | @halted limit machine halted =>
      rw [continueRun_of_halted halted, boundedEnd]
      rfl
  | @failed limit machine after e running failed =>
      have going : machine.Going := ⟨running, notCancelled⟩
      rw [continueRun_of_error going (congrArg Prod.snd failed), failed]
      rfl
  | @next limit machine middle after executed rows failure running stepped later ih =>
      have going : machine.Going := ⟨running, notCancelled⟩
      have stillNotCancelled : middle.controls.cancelled = false := by
        rw [← notCancelled, ← machine.cancelled_step, stepped]
      have moved : machine.step.1 = middle := congrArg Prod.fst stepped
      rw [continueRun_of_ok going (congrArg Prod.snd stepped), moved, ih stillNotCancelled]
      cases failure with
      | none => simp only [boundedEnd, List.length_cons, Nat.add_assoc, Nat.add_comm 1]
      | some e => rfl

/-! ## From the start -/

variable (runs : Runs limit (machine.act (.setRunning true)) rows after failure)

include runs

theorem Runs.trace : machine.trace limit = ⟨after, rows, failure⟩ :=
  runs.continueTrace []

theorem Runs.runToHalt (notCancelled : machine.controls.cancelled = false) :
    machine.runToHalt limit = boundedEnd 0 rows after failure := by
  have same : machine.act .withdrawCancel = machine := by
    rcases machine with ⟨_, _, _, ⟨_, _, _, _, _, _⟩, _, _⟩
    cases notCancelled
    rfl
  have stillNotCancelled : (machine.act (.setRunning true)).controls.cancelled = false :=
    notCancelled
  rw [Machine.runToHalt, same]
  exact runs.continueRun stillNotCancelled 0

end Machine
end SmallScale
