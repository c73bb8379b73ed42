import SmallScale.Machine.ControlLoop
import SmallScale.Proofs.Machine.Reachable

namespace SmallScale

/-!
# What a machine goes through

A machine is operated on, its control surface acts, and it runs under the control
loop while the surroundings act on the controls.  Whatever of this happens to a new
machine, and however much of it fails, it stays in shape, its speed stays possible,
and its count of cycles is the number of cycles that succeeded.

The successful cycles are not counted by the machine here.  Next to what an activity
makes of the machine stand the outcomes of all cycles that it attempts, and the
machine's own count is compared with these.  A run of the loop may be looked at
between any two of its accesses, which includes the moment when it has ended.
-/

/-- The result of one attempt at a cycle. -/
abbrev Outcome :=
  Except MachineError Executed

/-- The number of successful cycles. -/
def successes (outcomes : List Outcome) : Nat :=
  outcomes.countP Except.isOk

theorem successes_append (first second : List Outcome) :
    successes (first ++ second) = successes first + successes second :=
  List.countP_append

/-! ## Activities -/

namespace ControlLoop

/-- The outcome of the cycle that the next access attempts, if it attempts one. -/
def outcome? (loop : ControlLoop) : Option Outcome :=
  match loop.point with
  | .cycle _ => some loop.machine.step.2
  | _ => none

/-- The outcomes of the cycles attempted under a schedule. -/
def outcomes (loop : ControlLoop) : List (List ControlAction) → List Outcome
  | [] => []
  | actions :: later =>
      (actions.foldl interfere loop).outcome?.toList ++ (loop.advanceAfter actions).outcomes later

end ControlLoop

namespace Machine

/-- What can happen to a machine. -/
inductive Activity where
  | operation (operation : Operation)
  | control (action : ControlAction)
  /-- Take a single step that was asked for, if there is one, without executing it. -/
  | takeRequest
  /-- Run under the control loop, disturbed by the surroundings as scheduled. -/
  | loop (schedule : List (List ControlAction))

/-- The machine after an activity. -/
def undergo (machine : Machine) : Activity → Machine
  | .operation operation => machine.perform operation
  | .control action => machine.act action
  | .takeRequest =>
      match machine.controls.takeStep? with
      | some controls => machine.withControls controls
      | none => machine
  | .loop schedule => ((ControlLoop.entering machine).underSchedule schedule).machine

/-- The outcomes of the cycles that a bounded run attempts. -/
def runOutcomes (limit : Nat) (machine : Machine) : List Outcome :=
  match limit with
  | 0 => []
  | rest + 1 =>
      if machine.controls.running && !machine.controls.cancelled then
        match machine.step with
        | (_, .error e) => [.error e]
        | (after, .ok executed) => .ok executed :: runOutcomes rest after
      else []

/-- The outcomes of the cycles that an activity attempts. -/
def outcomes (machine : Machine) : Activity → List Outcome
  | .operation .step => [machine.step.2]
  | .operation (.run limit) =>
      runOutcomes limit ((machine.act .withdrawCancel).act (.setRunning true))
  | .operation _ | .control _ | .takeRequest => []
  | .loop schedule => (ControlLoop.entering machine).outcomes schedule

/-- The machine after one activity after the other. -/
def undergoAll (machine : Machine) (activities : List Activity) : Machine :=
  activities.foldl undergo machine

/-- The outcomes of all cycles that one activity after the other attempts. -/
def allOutcomes (machine : Machine) : List Activity → List Outcome
  | [] => []
  | activity :: later => machine.outcomes activity ++ (machine.undergo activity).allOutcomes later

/-! ## Progress -/

/-- What is kept on the way from one machine to another when these are the outcomes
of the cycles in between. -/
structure Progress (before after : Machine) (outcomes : List Outcome) : Prop where
  model_eq : after.model = before.model
  shaped : before.Shaped → after.Shaped
  cycles_eq : after.cycles = before.cycles + successes outcomes

variable {machine before middle after : Machine} {first second : List Outcome}

namespace Progress

theorem refl (machine : Machine) : Progress machine machine [] :=
  ⟨rfl, id, rfl⟩

theorem trans (start : Progress before middle first) (rest : Progress middle after second) :
    Progress before after (first ++ second) where
  model_eq := rest.model_eq.trans start.model_eq
  shaped := fun inShape => rest.shaped (start.shaped inShape)
  cycles_eq := by rw [rest.cycles_eq, start.cycles_eq, successes_append, Nat.add_assoc]

end Progress

theorem progress_withControls (machine : Machine) (controls : Controls) :
    Progress machine (machine.withControls controls) [] where
  model_eq := rfl
  shaped := fun inShape => ⟨inShape.control_length, inShape.accumulator_length, inShape.store⟩
  cycles_eq := rfl

theorem progress_act (machine : Machine) (action : ControlAction) :
    Progress machine (machine.act action) [] :=
  progress_withControls machine (machine.controls.act action)

/-- A cycle is counted exactly if it succeeds. -/
theorem progress_step (machine : Machine) : Progress machine machine.step.1 [machine.step.2] where
  model_eq := machine.model_step
  shaped := Shaped.step
  cycles_eq := by
    cases result : machine.step with
    | mk after outcome =>
        cases outcome with
        | error e =>
            rw [eq_advanced_of_step_error result]
            rfl
        | ok executed =>
            rcases step_eq_ok_iff.mp result with ⟨w, i, done, _, _, effect, _, rfl⟩
            have unchanged : done.cycles = machine.advanced.cycles := cycles_of_effect effect
            simp only [recorded, unchanged]
            rfl

/-! ## Runs and operations -/

theorem progress_continueRun (limit count : Nat) (machine : Machine) :
    Progress machine (continueRun limit count machine).1 (runOutcomes limit machine) := by
  induction limit generalizing count machine with
  | zero => exact .refl machine
  | succ rest ih =>
      have stepped := progress_step machine
      unfold continueRun runOutcomes
      split
      · cases result : machine.step with
        | mk after outcome =>
            rw [result] at stepped
            cases outcome with
            | error e => exact stepped.trans (progress_act after _)
            | ok executed => exact stepped.trans (ih (count + 1) after)
      · exact .refl machine

theorem progress_perform (machine : Machine) (operation : Operation) :
    Progress machine (machine.perform operation) (machine.outcomes (.operation operation)) := by
  cases operation with
  | step => exact progress_step machine
  | run limit =>
      have withdrawn := progress_act machine .withdrawCancel
      have started := progress_act (machine.act .withdrawCancel) (.setRunning true)
      exact (withdrawn.trans started).trans (progress_continueRun limit 0 _)
  | load source =>
      refine ⟨model_perform _ _, fun inShape => inShape.perform _, ?_⟩
      simp only [perform, load]
      cases Program.load machine.model source machine.store <;> rfl
  | setWord address w =>
      refine ⟨model_perform _ _, fun inShape => inShape.perform _, ?_⟩
      simp only [perform]
      cases machine.store.set address w <;> rfl
  | clearStore => exact ⟨rfl, Shaped.clearStore, rfl⟩
  | clearRegisters => exact ⟨rfl, Shaped.clearRegisters, rfl⟩

theorem progress_takeRequest (machine : Machine) :
    Progress machine (machine.undergo .takeRequest) [] := by
  simp only [undergo]
  split
  · exact progress_withControls machine _
  · exact .refl machine

/-! ## The control loop -/

theorem progress_afterCycle (machine : Machine) (single : Bool) :
    Progress machine (ControlLoop.afterCycle machine single).machine [machine.step.2] := by
  have stepped := progress_step machine
  unfold ControlLoop.afterCycle
  cases result : machine.step with
  | mk after outcome =>
      rw [result] at stepped
      cases outcome <;> exact stepped

/-- One access of the loop attempts at most one cycle, and only that one is
counted. -/
theorem progress_advance (loop : ControlLoop) :
    Progress loop.machine loop.advance.machine loop.outcome?.toList := by
  rcases loop with ⟨machine, point⟩
  cases point with
  | start => exact progress_act machine _
  | testCancelled => exact .refl machine
  | testRunning => exact .refl machine
  | takeRequest =>
      simp only [ControlLoop.advance]
      split
      · exact progress_withControls machine _
      · exact .refl machine
  | cycle single => exact progress_afterCycle machine single
  | testStopped => exact .refl machine
  | retestCancelled => exact .refl machine
  | pace => exact .refl machine
  | idle => exact .refl machine
  | clearRunning result => exact progress_act machine _
  | clearCancelled result => exact progress_act machine _
  | ended result => exact .refl machine

theorem progress_interfere (loop : ControlLoop) (actions : List ControlAction) :
    Progress loop.machine (actions.foldl ControlLoop.interfere loop).machine [] := by
  induction actions generalizing loop with
  | nil => exact .refl loop.machine
  | cons action later ih =>
      exact (progress_act loop.machine action).trans (ih (loop.interfere action))

theorem progress_underSchedule (loop : ControlLoop) (schedule : List (List ControlAction)) :
    Progress loop.machine (loop.underSchedule schedule).machine (loop.outcomes schedule) := by
  induction schedule generalizing loop with
  | nil => exact .refl loop.machine
  | cons actions later ih =>
      have disturbed := progress_interfere loop actions
      have accessed := progress_advance (actions.foldl ControlLoop.interfere loop)
      exact (disturbed.trans accessed).trans (ih (loop.advanceAfter actions))

/-! ## Histories -/

theorem progress_undergo (machine : Machine) (activity : Activity) :
    Progress machine (machine.undergo activity) (machine.outcomes activity) := by
  cases activity with
  | operation operation => exact progress_perform machine operation
  | control action => exact progress_act machine action
  | takeRequest => exact progress_takeRequest machine
  | loop schedule => exact progress_underSchedule (ControlLoop.entering machine) schedule

theorem progress_undergoAll (machine : Machine) (activities : List Activity) :
    Progress machine (machine.undergoAll activities) (machine.allOutcomes activities) := by
  induction activities generalizing machine with
  | nil => exact .refl machine
  | cons activity later ih => exact (progress_undergo machine activity).trans (ih _)

/-- Whatever a new machine goes through, it keeps its model, its registers and its
store have the sizes that the model asks for, its speed is possible, and its count
is that of the cycles that succeeded. -/
theorem sound_after_activities (model : Model) (activities : List Activity) :
    ((initial model).undergoAll activities).model = model ∧
      ((initial model).undergoAll activities).Shaped ∧
      (1 ≤ ((initial model).undergoAll activities).controls.speed ∧
        ((initial model).undergoAll activities).controls.speed ≤ maxSpeed) ∧
      ((initial model).undergoAll activities).cycles =
        successes ((initial model).allOutcomes activities) := by
  have progress := progress_undergoAll (initial model) activities
  refine ⟨progress.model_eq, progress.shaped (shaped_initial model),
    ⟨Controls.speed_pos _, Controls.speed_le _⟩, ?_⟩
  have counted := progress.cycles_eq
  rwa [show (initial model).cycles = 0 from rfl, Nat.zero_add] at counted

/-- In a clear store there are jumps to address zero only. -/
example :
    successes ((initial .smallScale).allOutcomes
      [.operation (.run 3), .control .cancel, .operation .step]) = 4 := by
  decide +kernel

end Machine
end SmallScale
