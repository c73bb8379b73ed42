import SmallScale.Proofs.Machine.Cycles

namespace SmallScale
namespace Machine

/-!
# Bounded runs

A bounded run executes one cycle after the other until the first that fails or
executes a halt, or until the limit is reached.  `RunResult` lists these three
ways to end with the machine and the answer that each of them gives.  Everything
else about bounded runs follows from it, in particular that a run may be cut into
a run and a second one.
-/

/-- The machine that a run starts from: a request to end an earlier run is dropped
and the run flag is set. -/
def started (machine : Machine) : Machine :=
  (machine.act .withdrawCancel).act (.setRunning true)

/-- Nothing in the controls keeps a run from executing the next cycle. -/
structure Going (machine : Machine) : Prop where
  running : machine.controls.running = true
  notCancelled : machine.controls.cancelled = false

/-- How a run of at most `limit` cycles from a going machine ends. -/
inductive RunResult (machine : Machine) (limit : Nat) :
    Machine × Except MachineError Nat → Prop where
  /-- As many cycles as allowed are executed and the machine could go on. -/
  | exhausted (free : machine.RunsFreely limit) :
      RunResult machine limit (machine.stepped limit, .ok limit)
  /-- The last cycle executes a halt. -/
  | halted {before : Nat} {executed : Executed} (inside : before < limit)
      (free : machine.RunsFreely before) (succeeded : machine.attempt before = .ok executed)
      (isHalt : executed.mnemonic = .stp) :
      RunResult machine limit (machine.stepped (before + 1), .ok (before + 1))
  /-- The last cycle fails. -/
  | failed {before : Nat} {e : MachineError} (inside : before < limit)
      (free : machine.RunsFreely before) (failed : machine.attempt before = .error e) :
      RunResult machine limit ((machine.stepped (before + 1)).act (.setRunning false), .error e)

variable {machine : Machine} {count done limit : Nat} {e : MachineError} {executed : Executed}

theorem going_started (machine : Machine) : machine.started.Going :=
  ⟨rfl, rfl⟩

theorem Going.started_eq (going : machine.Going) : machine.started = machine := by
  rcases machine with ⟨_, _, _, ⟨_, _, _, _, _, _⟩, _, _⟩
  rcases going with ⟨running, notCancelled⟩
  cases running
  cases notCancelled
  rfl

theorem Going.stepped (going : machine.Going) (free : machine.RunsFreely count) :
    (machine.stepped count).Going := by
  have kept := controls_stepped free
  exact ⟨kept ▸ going.running, kept ▸ going.notCancelled⟩

theorem Going.step (going : machine.Going) (goesOn : ¬ EndsRun machine.step.2) :
    machine.step.1.Going :=
  going.stepped (runsFreely_succ_iff_left.mpr ⟨goesOn, runsFreely_zero _⟩)

/-! ## Single cycles of a run -/

theorem continueRun_of_error (going : machine.Going) (failed : machine.step.2 = .error e)
    (rest : Nat) :
    continueRun (rest + 1) count machine = (machine.step.1.act (.setRunning false), .error e) := by
  simp only [continueRun, going.running, going.notCancelled, Bool.not_false, Bool.and_self, if_true]
  rw [step_eq_pair failed]

theorem continueRun_of_ok (going : machine.Going) (succeeded : machine.step.2 = .ok executed)
    (rest : Nat) :
    continueRun (rest + 1) count machine = continueRun rest (count + 1) machine.step.1 := by
  simp only [continueRun, going.running, going.notCancelled, Bool.not_false, Bool.and_self, if_true]
  rw [step_eq_pair succeeded]

theorem continueRun_of_halted (halted : machine.controls.running = false) (limit : Nat) :
    continueRun limit count machine = (machine, .ok count) := by
  cases limit with
  | zero => rfl
  | succ rest => simp only [continueRun, halted, Bool.false_and, Bool.false_eq_true, if_false]

/-- A run may start to count from any number. -/
theorem continueRun_count (limit count : Nat) (machine : Machine) :
    continueRun limit count machine =
      ((continueRun limit 0 machine).1, (continueRun limit 0 machine).2.map (count + ·)) := by
  induction limit generalizing count machine with
  | zero => rfl
  | succ rest ih =>
      unfold continueRun
      split
      · cases machine.step with
        | mk after outcome =>
            cases outcome with
            | error e => rfl
            | ok executed =>
                simp only
                rw [ih (count + 1), ih (0 + 1)]
                congr 1
                cases (continueRun rest 0 after).2 with
                | error e => rfl
                | ok total => simp only [Except.map, Nat.zero_add, Nat.add_assoc]
      · rfl

/-! ## Whole runs -/

/-- As long as it is free, a run is at the machine after so many cycles. -/
theorem continueRun_of_runsFreely (going : machine.Going) (free : machine.RunsFreely done)
    (rest count : Nat) :
    continueRun (done + rest) count machine = continueRun rest (count + done) (machine.stepped done) := by
  induction done generalizing count machine with
  | zero => rw [Nat.zero_add, Nat.add_zero, stepped]
  | succ done ih =>
      rcases runsFreely_succ_iff_left.mp free with ⟨goesOn, later⟩
      rcases exists_executed_of_not_endsRun goesOn with ⟨executed, succeeded, _⟩
      rw [Nat.succ_add, continueRun_of_ok going succeeded, ih (going.step goesOn) later, stepped,
        Nat.add_assoc, Nat.add_comm 1 done]

theorem running_of_halt (succeeded : machine.attempt done = .ok executed)
    (isHalt : executed.mnemonic = .stp) :
    (machine.stepped (done + 1)).controls.running = false := by
  rw [stepped_succ, controls_step, ← attempt, succeeded, controlsAfter, if_pos isHalt]
  rfl

theorem runToHalt_of_error (inside : done < limit) (free : machine.started.RunsFreely done)
    (failed : machine.started.attempt done = .error e) :
    machine.runToHalt limit =
      ((machine.started.stepped (done + 1)).act (.setRunning false), .error e) := by
  have going := machine.going_started
  rcases Nat.exists_eq_add_of_lt inside with ⟨rest, rfl⟩
  have reached := continueRun_of_runsFreely going free (rest + 1) 0
  rw [runToHalt, ← started, Nat.add_assoc, reached,
    continueRun_of_error (going.stepped free) failed, stepped_succ]

theorem runToHalt_of_halt (inside : done < limit) (free : machine.started.RunsFreely done)
    (succeeded : machine.started.attempt done = .ok executed) (isHalt : executed.mnemonic = .stp) :
    machine.runToHalt limit = (machine.started.stepped (done + 1), .ok (done + 1)) := by
  have going := machine.going_started
  rcases Nat.exists_eq_add_of_lt inside with ⟨rest, rfl⟩
  have reached := continueRun_of_runsFreely going free (rest + 1) 0
  rw [runToHalt, ← started, Nat.add_assoc, reached,
    continueRun_of_ok (going.stepped free) succeeded, ← stepped_succ,
    continueRun_of_halted (running_of_halt succeeded isHalt), Nat.zero_add]

/-- Behind a free part, a run goes on as a run of its own. -/
theorem runToHalt_add (free : machine.started.RunsFreely done) (rest : Nat) :
    machine.runToHalt (done + rest) =
      (((machine.started.stepped done).runToHalt rest).1,
        ((machine.started.stepped done).runToHalt rest).2.map (done + ·)) := by
  have going := machine.going_started
  have restarted : (machine.started.stepped done).runToHalt rest =
      continueRun rest 0 (machine.started.stepped done) :=
    congrArg (continueRun rest 0) (going.stepped free).started_eq
  rw [restarted, ← continueRun_count, runToHalt, ← started,
    continueRun_of_runsFreely going free, Nat.zero_add]

theorem runToHalt_of_runsFreely (free : machine.started.RunsFreely limit) :
    machine.runToHalt limit = (machine.started.stepped limit, .ok limit) := by
  have stops : (machine.started.stepped limit).runToHalt 0 = (machine.started.stepped limit, .ok 0) :=
    congrArg (·, Except.ok 0) (machine.going_started.stepped free).started_eq
  have whole := runToHalt_add free 0
  rwa [Nat.add_zero, stops] at whole

theorem runResult_runToHalt (machine : Machine) (limit : Nat) :
    RunResult machine.started limit (machine.runToHalt limit) := by
  rcases machine.started.runsFreely_or_ends limit with free | ⟨before, inside, free, ends⟩
  · rw [runToHalt_of_runsFreely free]
    exact .exhausted free
  · cases outcome : machine.started.attempt before with
    | error e =>
        rw [runToHalt_of_error inside free outcome]
        exact .failed inside free outcome
    | ok executed =>
        have isHalt := ends executed outcome
        rw [runToHalt_of_halt inside free outcome isHalt]
        exact .halted inside free outcome isHalt

/-! ## What a run returns -/

/-- A run of at most `limit` cycles that returned a count. -/
structure Completed (machine : Machine) (limit : Nat) (after : Machine) (count : Nat) : Prop where
  after_eq : after = machine.started.stepped count
  within : count ≤ limit
  cycles_eq : after.cycles = machine.cycles + count
  /-- All its cycles succeeded, and none but the last executed a halt. -/
  succeeded : ∀ index < count, ∃ executed,
    machine.started.attempt index = .ok executed ∧ (executed.mnemonic = .stp → index + 1 = count)
  halted_iff : after.controls.running = false ↔
    ∃ index executed, count = index + 1 ∧ machine.started.attempt index = .ok executed ∧
      executed.mnemonic = .stp
  limit_reached : after.controls.running = true → count = limit

/-- A run of at most `limit` cycles that returned an error. -/
structure Failed (machine : Machine) (limit : Nat) (after : Machine) (e : MachineError) : Prop where
  /-- The cycle that failed came behind cycles that succeeded without a halt. -/
  exists_failing : ∃ count < limit, machine.started.RunsFreely count ∧
    machine.started.attempt count = .error e ∧ after.cycles = machine.cycles + count ∧
    after = (machine.started.stepped (count + 1)).act (.setRunning false)
  halted : after.controls.running = false

theorem RunsFreely.exists_executed (free : machine.RunsFreely count) {index : Nat}
    (inside : index < count) : ∃ executed, machine.attempt index = .ok executed ∧
      executed.mnemonic ≠ .stp :=
  exists_executed_of_not_endsRun (free index inside)

theorem completed_of_runsFreely (free : machine.started.RunsFreely limit) :
    Completed machine limit (machine.started.stepped limit) limit where
  after_eq := rfl
  within := Nat.le_refl limit
  cycles_eq := cycles_stepped free
  succeeded := by
    intro index inside
    rcases free.exists_executed inside with ⟨executed, succeeded, noHalt⟩
    exact ⟨executed, succeeded, fun isHalt => (noHalt isHalt).elim⟩
  halted_iff := by
    rw [(machine.going_started.stepped free).running]
    constructor
    · nofun
    · rintro ⟨index, executed, rfl, succeeded, isHalt⟩
      rcases free.exists_executed (Nat.lt_succ_self index) with ⟨other, same, noHalt⟩
      cases succeeded.symm.trans same
      exact (noHalt isHalt).elim
  limit_reached := fun _ => rfl

theorem completed_of_halt (inside : done < limit) (free : machine.started.RunsFreely done)
    (succeeded : machine.started.attempt done = .ok executed) (isHalt : executed.mnemonic = .stp) :
    Completed machine limit (machine.started.stepped (done + 1)) (done + 1) where
  after_eq := rfl
  within := inside
  cycles_eq := by
    rw [cycles_stepped_succ succeeded, cycles_stepped free, Nat.add_assoc]
    rfl
  succeeded := by
    intro index before
    rcases Nat.lt_succ_iff_lt_or_eq.mp before with earlier | rfl
    · rcases free.exists_executed earlier with ⟨other, same, noHalt⟩
      exact ⟨other, same, fun isOther => (noHalt isOther).elim⟩
    · exact ⟨executed, succeeded, fun _ => rfl⟩
  halted_iff := by
    rw [running_of_halt succeeded isHalt]
    exact ⟨fun _ => ⟨done, executed, rfl, succeeded, isHalt⟩, fun _ => rfl⟩
  limit_reached := by
    rw [running_of_halt succeeded isHalt]
    nofun

theorem failed_of_error (inside : done < limit) (free : machine.started.RunsFreely done)
    (failed : machine.started.attempt done = .error e) :
    Failed machine limit ((machine.started.stepped (done + 1)).act (.setRunning false)) e where
  exists_failing := by
    refine ⟨done, inside, free, failed, ?_, rfl⟩
    have counted := (progress_step (machine.started.stepped done)).cycles_eq
    rw [← attempt, failed, ← stepped_succ, cycles_stepped free] at counted
    exact counted
  halted := rfl

/-- A bounded run iterates the cycle until the first halt, the first failure or the
limit, and leaves the machine that so many cycles make.  Cutting it in two changes
nothing: where the first part fails or halts it is the whole run, and elsewhere the
second part goes on from the machine it left. -/
theorem runToHalt_iterates_and_composes (machine : Machine) :
    (∀ limit after count, machine.runToHalt limit = (after, .ok count) →
      Completed machine limit after count) ∧
      (∀ limit after e, machine.runToHalt limit = (after, .error e) →
        Failed machine limit after e) ∧
      ∀ first second middle,
        (∀ e, machine.runToHalt first = (middle, .error e) →
          machine.runToHalt (first + second) = (middle, .error e)) ∧
        ∀ count, machine.runToHalt first = (middle, .ok count) →
          (middle.controls.running = false →
            machine.runToHalt (first + second) = (middle, .ok count)) ∧
          (middle.controls.running = true →
            machine.runToHalt (first + second) =
              ((middle.runToHalt second).1, (middle.runToHalt second).2.map (count + ·))) := by
  refine ⟨?_, ?_, ?_⟩
  · intro limit after count ran
    have result := machine.runResult_runToHalt limit
    rw [ran] at result
    cases result with
    | exhausted free => exact completed_of_runsFreely free
    | halted inside free succeeded isHalt => exact completed_of_halt inside free succeeded isHalt
  · intro limit after e ran
    have result := machine.runResult_runToHalt limit
    rw [ran] at result
    cases result with
    | failed inside free failed => exact failed_of_error inside free failed
  · intro first second middle
    have result := machine.runResult_runToHalt first
    constructor
    · intro e ran
      rw [ran] at result
      cases result with
      | failed inside free failed =>
          exact runToHalt_of_error (Nat.lt_add_right second inside) free failed
    · intro count ran
      rw [ran] at result
      cases result with
      | exhausted free =>
          have going := (machine.going_started.stepped free).running
          constructor
          · intro halted
            rw [going] at halted
            cases halted
          · intro _
            exact runToHalt_add free second
      | halted inside free succeeded isHalt =>
          have halted := running_of_halt succeeded isHalt
          constructor
          · intro _
            exact runToHalt_of_halt (Nat.lt_add_right second inside) free succeeded isHalt
          · intro running
            rw [halted] at running
            cases running

/-- The machine of 1948 with a load at address 1 and a halt at address 2, and with
a request to end left over. -/
def haltsAtTwo : Machine :=
  { initial .smallScale with
    store := Program.imageOf
      [Word.zero 32, Model.smallScale.instructionWord 0 ⟨[false, true, false]⟩,
        Model.smallScale.instructionWord 0 ⟨[true, true, true]⟩]
      (Store.empty 32 32)
    controls := (Controls.initial 700).setCancelled true }

/-- The request is dropped, and the run halts at its second cycle whether it is cut
behind the first or not. -/
theorem runToHalt_iterates_and_composes_haltsAtTwo :
    ∃ middle after, haltsAtTwo.runToHalt 1 = (middle, .ok 1) ∧
      haltsAtTwo.runToHalt 10 = (after, .ok 2) ∧ Completed haltsAtTwo 10 after 2 ∧
      haltsAtTwo.runToHalt (1 + 9) =
        ((middle.runToHalt 9).1, (middle.runToHalt 9).2.map (1 + ·)) ∧
      haltsAtTwo.runToHalt (10 + 5) = (after, .ok 2) := by
  have law := runToHalt_iterates_and_composes haltsAtTwo
  have first : haltsAtTwo.runToHalt 1 = ((haltsAtTwo.runToHalt 1).1, .ok 1) := by decide +kernel
  have whole : haltsAtTwo.runToHalt 10 = ((haltsAtTwo.runToHalt 10).1, .ok 2) := by decide +kernel
  refine ⟨_, _, first, whole, law.1 _ _ _ whole, ?_, ?_⟩
  · exact ((law.2.2 1 9 _).2 1 first).2 (by decide +kernel)
  · exact ((law.2.2 10 5 _).2 2 whole).1 (by decide +kernel)

end Machine
end SmallScale
