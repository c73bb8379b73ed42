import SmallScale.Proofs.Machine.BoundedRun
import SmallScale.Proofs.Machine.ControlLoop.Requests

namespace SmallScale

/-!
# Left to itself

A loop that nobody disturbs runs freely to the first halt, serves the requests that
are pending, one after the other, and idles.  A cycle that fails ends it at once.
That is what a bounded run does with single steps behind it, which read no request
and no flag.
-/

namespace Machine

/-- What a number of single steps has led to. -/
structure Stepping where
  machine : Machine
  attempted : Nat
  result : Except MachineError Unit

/-- Single steps, as many as told or up to the first that fails. -/
def singleSteps (machine : Machine) : Nat → Stepping
  | 0 => ⟨machine, 0, .ok ()⟩
  | count + 1 =>
      match machine.step with
      | (after, .error e) => ⟨after, 1, .error e⟩
      | (after, .ok _) =>
          let later := after.singleSteps count
          ⟨later.machine, later.attempted + 1, later.result⟩

/-- A bounded run and, unless it fails, single steps behind it. -/
def runThenStep (machine : Machine) (limit requests : Nat) : Stepping :=
  match machine.runToHalt limit with
  | (after, .error e) => ⟨after, 0, .error e⟩
  | (after, .ok _) => after.singleSteps requests

/-- A free run of the machine ends with the cycle of this number. -/
def EndsAt (machine : Machine) (needed : Nat) : Prop :=
  ∃ before, needed = before + 1 ∧ machine.RunsFreely before ∧ EndsRun (machine.attempt before)

/-- The machine with the flags cleared, as a loop leaves it. -/
def released (machine : Machine) : Machine :=
  (machine.act (.setRunning false)).act .withdrawCancel

variable {machine : Machine} {count : Nat} {e : MachineError} {executed : Executed}

theorem SameComputation.released (machine : Machine) : SameComputation machine.released machine :=
  .trans (.act _ _) (.act _ _)

theorem singleSteps_of_error (failed : machine.step.2 = .error e) (count : Nat) :
    machine.singleSteps (count + 1) = ⟨machine.step.1, 1, .error e⟩ := by
  rw [singleSteps, step_eq_pair failed]

theorem singleSteps_of_ok (succeeded : machine.step.2 = .ok executed) (count : Nat) :
    machine.singleSteps (count + 1) =
      ⟨(machine.step.1.singleSteps count).machine, (machine.step.1.singleSteps count).attempted + 1,
        (machine.step.1.singleSteps count).result⟩ := by
  rw [singleSteps, step_eq_pair succeeded]

end Machine

namespace ControlLoop

open Machine

/-- Left to itself, the loop comes to rest here: it idles or it has ended. -/
inductive Settles : ControlLoop → ControlLoop → Prop where
  | last {loop : ControlLoop} (settled : loop.advance.isSettled = true) : Settles loop loop.advance
  | next {loop target : ControlLoop} (busy : loop.advance.isSettled = false)
      (later : Settles loop.advance target) : Settles loop target

/-- Where the loop rests behind single steps with this result. -/
def restingPoint : Except MachineError Unit → LoopPoint
  | .ok _ => .idle
  | .error e => .ended (.error e)

/-- The loop leaves behind what the batch does.  From so many pending requests it has
taken one for each step that was attempted. -/
structure Leaves (after : Machine) (batch : Stepping) (pending : UInt32) : Prop where
  same : SameComputation after batch.machine
  taken : after.controls.pending.toNat + batch.attempted = pending.toNat
  halted : after.controls.running = false
  notCancelled : after.controls.cancelled = false

variable {loop next target : ControlLoop} {machine start : Machine} {batch : Stepping}
  {count : Nat} {pending : UInt32} {single : Bool} {e : MachineError} {executed : Executed}

namespace Settles

theorem of_next (moved : loop.advance = next) (busy : next.isSettled = false)
    (later : Settles next target) : Settles loop target := by
  subst moved
  exact .next busy later

theorem of_last (moved : loop.advance = target) (settled : target.isSettled = true) :
    Settles loop target := by
  subst moved
  exact .last settled

/-- The loop is found settled after enough accesses, and after more it is found so, too. -/
theorem exists_settle (settles : Settles loop target) :
    ∃ enough, ∀ count ≥ enough, loop.settle count = target := by
  induction settles with
  | last settled =>
      refine ⟨1, fun count atLeast => ?_⟩
      cases count with
      | zero => cases atLeast
      | succ count => rw [settle, if_pos settled]
  | @next loop target busy later ih =>
      rcases ih with ⟨enough, found⟩
      refine ⟨enough + 1, fun count atLeast => ?_⟩
      cases count with
      | zero => cases atLeast
      | succ count =>
          have noRest : ¬ loop.advance.isSettled = true := by
            rw [busy]
            nofun
          rw [settle, if_neg noRest]
          exact found count (Nat.le_of_succ_le_succ atLeast)

theorem clearRunning (machine : Machine) (result : Except MachineError Unit) :
    Settles ⟨machine, .clearRunning result⟩ ⟨machine.released, .ended result⟩ :=
  .next rfl (.last rfl)

theorem cycle (later : Settles (afterCycle machine single) target) :
    Settles ⟨machine, .cycle single⟩ target := by
  have busy : (afterCycle machine single).isSettled = false := by
    unfold isSettled isIdle result?
    rcases point_afterCycle machine single with ⟨e, next⟩ | next | next <;> rw [next] <;> rfl
  exact .next busy later

/-! ## Running freely -/

theorem going (goes : machine.Going) (later : Settles (afterCycle machine false) target) :
    Settles ⟨machine, .testCancelled⟩ target :=
  .of_next (advance_testCancelled goes.notCancelled) rfl
    (.of_next (advance_testRunning goes.running) rfl (.cycle later))

theorem runsFreely (goes : machine.Going) (free : machine.RunsFreely count)
    (later : Settles ⟨machine.stepped count, .testCancelled⟩ target) :
    Settles ⟨machine, .testCancelled⟩ target := by
  induction count generalizing machine with
  | zero => exact later
  | succ count ih =>
      rcases runsFreely_succ_iff_left.mp free with ⟨goesOn, rest⟩
      rcases exists_executed_of_not_endsRun goesOn with ⟨executed, succeeded, _⟩
      have still := goes.step goesOn
      apply going goes
      rw [afterCycle_of_ok succeeded]
      refine .of_next (advance_testStopped still.running) rfl ?_
      refine .of_next (advance_retestCancelled still.notCancelled) rfl ?_
      exact .next rfl (ih still rest later)

theorem failing (goes : machine.Going) (free : machine.RunsFreely count)
    (failed : machine.attempt count = .error e) :
    Settles ⟨machine, .testCancelled⟩
      ⟨(machine.stepped (count + 1)).released, .ended (.error e)⟩ := by
  apply runsFreely goes free
  apply going (goes.stepped free)
  rw [afterCycle_of_error failed, ← stepped_succ]
  exact clearRunning _ _

theorem halting (goes : machine.Going) (free : machine.RunsFreely count)
    (succeeded : machine.attempt count = .ok executed) (isHalt : executed.mnemonic = .stp)
    (later : Settles ⟨machine.stepped (count + 1), .testCancelled⟩ target) :
    Settles ⟨machine, .testCancelled⟩ target := by
  apply runsFreely goes free
  apply going (goes.stepped free)
  rw [afterCycle_of_ok succeeded, ← stepped_succ]
  exact .of_next (advance_testStopped_of_halted (running_of_halt succeeded isHalt)) rfl later

end Settles

/-! ## Serving the requests -/

theorem takeStep?_of_toNat_eq_zero {controls : Controls} (none : controls.pending.toNat = 0) :
    controls.takeStep? = .none :=
  if_pos (UInt32.toNat_inj.mp none)

/-- Where a request is pending it can be taken, and nothing else changes. -/
theorem takeStep?_of_toNat {controls : Controls} (pending : controls.pending.toNat = count + 1) :
    ∃ after, controls.takeStep? = some after ∧ after.pending.toNat = count ∧
      after.running = controls.running ∧ after.cancelled = controls.cancelled := by
  have some : controls.pending ≠ 0 := by
    intro none
    rw [none] at pending
    cases pending
  have taken : (controls.pending - 1).toNat + 1 = controls.pending.toNat :=
    (Balanced.take some).exact (by have small := controls.pending.toNat_lt; omega)
  exact ⟨_, if_neg some, Nat.succ.inj (taken.trans pending), rfl, rfl⟩

/-- Halted and left to itself, the loop does what single steps do, one for each
pending request. -/
theorem settles_of_halted (same : SameComputation machine start)
    (halted : machine.controls.running = false) (notAsked : machine.controls.cancelled = false)
    (pending : machine.controls.pending.toNat = count) :
    ∃ after, Settles ⟨machine, .testCancelled⟩
        ⟨after, restingPoint (start.singleSteps count).result⟩ ∧
      Leaves after (start.singleSteps count) machine.controls.pending := by
  induction count generalizing machine start with
  | zero =>
      refine ⟨machine, ?_, same, rfl, halted, notAsked⟩
      refine .of_next (advance_testCancelled notAsked) rfl ?_
      refine .of_next (advance_testRunning_of_halted halted) rfl ?_
      exact .of_last (advance_takeRequest_of_none (takeStep?_of_toNat_eq_zero pending)) rfl
  | succ count ih =>
      rcases takeStep?_of_toNat pending with ⟨controls, found, left, noRun, noEnd⟩
      let serving := machine.withControls controls
      have served : SameComputation serving start :=
        (SameComputation.withControls machine controls).trans same
      have kept : serving.step.1.controls = controls :=
        controls_step_of_halted (noRun.trans halted)
      have reaches {target : ControlLoop} (later : Settles (afterCycle serving true) target) :
          Settles ⟨machine, .testCancelled⟩ target :=
        .of_next (advance_testCancelled notAsked) rfl
          (.of_next (advance_testRunning_of_halted halted) rfl
            (.of_next (advance_takeRequest found) rfl (.cycle later)))
      cases outcome : start.step.2 with
      | error e =>
          rw [singleSteps_of_error outcome]
          refine ⟨serving.step.1.released, reaches ?_, ?_⟩
          · rw [afterCycle_of_error (served.step.2.trans outcome)]
            exact .clearRunning _ _
          · exact
              { same := (SameComputation.released _).trans served.step.1
                taken := by
                  change serving.step.1.controls.pending.toNat + 1 = _
                  rw [kept, left, pending]
                halted := rfl
                notCancelled := rfl }
      | ok executed =>
          rw [singleSteps_of_ok outcome]
          rcases ih served.step.1 (kept ▸ noRun.trans halted) (kept ▸ noEnd.trans notAsked)
            (kept ▸ left) with ⟨after, settles, leaves⟩
          refine ⟨after, reaches ?_, leaves.same, ?_, leaves.halted, leaves.notCancelled⟩
          · rw [afterCycle_of_ok (served.step.2.trans outcome)]
            exact settles
          · have others := leaves.taken
            rw [kept, left] at others
            exact (congrArg Nat.succ others).trans pending.symm

/-! ## The whole way -/

/-- Asked to end as soon as it idles, a loop that settles behind the batch ends with
the result of the batch. -/
theorem exists_runWatched {after : Machine} (leaves : Leaves after batch pending)
    (settles : Settles loop ⟨after, restingPoint batch.result⟩) :
    ∃ last, Leaves last batch pending ∧
      ∃ enough, ∀ count ≥ enough, loop.runWatched count = ⟨last, .ended batch.result⟩ := by
  rcases settles.exists_settle with ⟨enough, found⟩
  cases result : batch.result with
  | error e =>
      refine ⟨after, leaves, enough, fun count atLeast => ?_⟩
      rw [runWatched, found count atLeast, result]
      rfl
  | ok done =>
      have ends : Settles ⟨after.act .cancel, .idle⟩
          ⟨(after.act .cancel).released, .ended (.ok ())⟩ :=
        .next rfl (.of_next (advance_testCancelled_of_cancelled rfl) rfl (.clearRunning _ _))
      rcases ends.exists_settle with ⟨enoughToEnd, ended⟩
      refine ⟨(after.act .cancel).released, ?_, max enough enoughToEnd, fun count atLeast => ?_⟩
      · exact
          { same := ((SameComputation.released _).trans (.act _ _)).trans leaves.same
            taken := leaves.taken
            halted := rfl
            notCancelled := rfl }
      · have settled := found count (Nat.le_trans (Nat.le_max_left _ _) atLeast)
        have atEnd := ended count (Nat.le_trans (Nat.le_max_right _ _) atLeast)
        rw [result] at settled
        rw [runWatched, settled]
        exact atEnd

theorem entering_settles (notAsked : machine.controls.cancelled = false)
    (later : Settles ⟨machine.started, .testCancelled⟩ target) :
    Settles (entering machine) target := by
  have same : machine.act .withdrawCancel = machine := by
    rcases machine with ⟨_, _, _, ⟨_, _, _, _, _, _⟩, _, _⟩
    cases notAsked
    rfl
  rw [started, same] at later
  exact .next rfl later

/-- A loop whose free run ends settles where a bounded run with single steps behind
it leaves the machine. -/
theorem exists_settles_of_endsAt (notAsked : machine.controls.cancelled = false) {needed limit : Nat}
    (endsAt : machine.EndsAt needed) (allowed : needed ≤ limit) :
    ∃ after, Settles (entering machine)
        ⟨after, restingPoint
          (machine.runThenStep limit machine.controls.pending.toNat).result⟩ ∧
      Leaves after (machine.runThenStep limit machine.controls.pending.toNat)
        machine.controls.pending := by
  rcases endsAt with ⟨before, rfl, free, ends⟩
  have same : SameComputation machine.started machine := .trans (.act _ _) (.act _ _)
  have goes := machine.going_started
  have freely := same.runsFreely free
  rcases machine.started.exists_controls_stepped (before + 1) with ⟨running, written⟩
  have untaken : (machine.started.stepped (before + 1)).controls.pending =
      machine.controls.pending := by
    rw [written]
    rfl
  have stillNotAsked : (machine.started.stepped (before + 1)).controls.cancelled = false := by
    rw [written]
    rfl
  rw [← same.attempt] at ends
  cases outcome : machine.started.attempt before with
  | error e =>
      rw [runThenStep, runToHalt_of_error allowed freely outcome]
      refine ⟨(machine.started.stepped (before + 1)).released, ?_, ?_⟩
      · exact entering_settles notAsked (.failing goes freely outcome)
      · exact
          { same := (SameComputation.released _).trans (SameComputation.act _ _).symm
            taken := congrArg UInt32.toNat untaken
            halted := rfl
            notCancelled := rfl }
  | ok executed =>
      have isHalt := ends executed outcome
      have halted := running_of_halt outcome isHalt
      rw [runThenStep, runToHalt_of_halt allowed freely outcome isHalt]
      rcases settles_of_halted (.refl _) halted stillNotAsked (congrArg UInt32.toNat untaken) with
        ⟨after, settles, leaves⟩
      rw [untaken] at leaves
      exact ⟨after, entering_settles notAsked (.halting goes freely outcome isHalt settles), leaves⟩

end ControlLoop
end SmallScale
