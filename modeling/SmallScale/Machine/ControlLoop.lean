import SmallScale.Machine

namespace SmallScale

/-!
# The control loop

A machine that runs on its own is driven by a loop.  While the run flag is set
it executes cycles; while it is clear it executes single steps that were asked
for and idles when there are none; it ends on request or when a cycle fails.  On
every way out the run flag and the request to end are cleared.

The control surface may act at any moment, so the loop is a process that makes
one access to the controls at a time.  `advance` makes the next access and moves
on; between two accesses the surroundings may do any number of control actions.
How long the loop waits between cycles depends on time alone and is left out.  What
observers are sent is said where there is one, at the front panel.
-/

/-- Where the loop is: what it does next. -/
inductive LoopPoint where
  /-- Set the run flag. -/
  | start
  /-- See whether the end is asked for. -/
  | testCancelled
  /-- See whether the run flag is set. -/
  | testRunning
  /-- Take a single step that was asked for. -/
  | takeRequest
  /-- Execute a cycle, as a single step or freely. -/
  | cycle (single : Bool)
  /-- See whether the cycle has cleared the run flag. -/
  | testStopped
  /-- See whether the end was asked for during the cycle. -/
  | retestCancelled
  /-- Read the speed and wait until the next cycle is due. -/
  | pace
  /-- Wait a moment because there is nothing to do. -/
  | idle
  /-- Clear the run flag on the way out. -/
  | clearRunning (result : Except MachineError Unit)
  /-- Clear the request to end on the way out. -/
  | clearCancelled (result : Except MachineError Unit)
  /-- The loop has ended. -/
  | ended (result : Except MachineError Unit)

/-- A machine and the loop that drives it. -/
structure ControlLoop where
  machine : Machine
  point : LoopPoint

namespace ControlLoop

/-- The loop about to start. -/
def entering (machine : Machine) : ControlLoop :=
  ⟨machine, .start⟩

/-- Execute a cycle and go on behind it, or leave with its failure. -/
def afterCycle (machine : Machine) (single : Bool) : ControlLoop :=
  match machine.step with
  | (after, .error e) => ⟨after, .clearRunning (.error e)⟩
  | (after, .ok _) => ⟨after, if single then .testCancelled else .testStopped⟩

/-- The next access of the loop. -/
def advance (loop : ControlLoop) : ControlLoop :=
  let machine := loop.machine
  match loop.point with
  | .start => ⟨machine.act (.setRunning true), .testCancelled⟩
  | .testCancelled =>
      ⟨machine, if machine.controls.cancelled then .clearRunning (.ok ()) else .testRunning⟩
  | .testRunning =>
      ⟨machine, if machine.controls.running then .cycle false else .takeRequest⟩
  | .takeRequest =>
      match machine.controls.takeStep? with
      | some controls => ⟨machine.withControls controls, .cycle true⟩
      | none => ⟨machine, .idle⟩
  | .cycle single => afterCycle machine single
  | .testStopped =>
      ⟨machine, if machine.controls.running then .retestCancelled else .testCancelled⟩
  | .retestCancelled =>
      ⟨machine, if machine.controls.cancelled then .clearRunning (.ok ()) else .pace⟩
  | .pace => ⟨machine, .testCancelled⟩
  | .idle => ⟨machine, .testCancelled⟩
  | .clearRunning result => ⟨machine.act (.setRunning false), .clearCancelled result⟩
  | .clearCancelled result => ⟨machine.act .withdrawCancel, .ended result⟩
  | .ended result => ⟨machine, .ended result⟩

/-- An action of the surroundings between two accesses. -/
def interfere (loop : ControlLoop) (action : ControlAction) : ControlLoop :=
  { loop with machine := loop.machine.act action }

/-- One access of the loop after some actions of the surroundings. -/
def advanceAfter (loop : ControlLoop) (actions : List ControlAction) : ControlLoop :=
  (actions.foldl interfere loop).advance

/-- The loop under a schedule: the actions of the surroundings before each
access. -/
def underSchedule (loop : ControlLoop) (schedule : List (List ControlAction)) : ControlLoop :=
  schedule.foldl advanceAfter loop

/-- The loop after a number of undisturbed accesses. -/
def undisturbed (loop : ControlLoop) : Nat → ControlLoop
  | 0 => loop
  | count + 1 => loop.advance.undisturbed count

/-- The loop has ended with this result. -/
def result? (loop : ControlLoop) : Option (Except MachineError Unit) :=
  match loop.point with
  | .ended result => some result
  | _ => none

/-- The loop waits because there is nothing to do. -/
def isIdle (loop : ControlLoop) : Bool :=
  match loop.point with
  | .idle => true
  | _ => false

/-- The loop will do nothing more unless the surroundings act. -/
def isSettled (loop : ControlLoop) : Bool :=
  loop.isIdle || loop.result?.isSome

/-- The loop once it is settled again, if it settles within a number of
undisturbed accesses, of which there is at least one. -/
def settle (loop : ControlLoop) : Nat → ControlLoop
  | 0 => loop
  | count + 1 => if loop.advance.isSettled then loop.advance else loop.advance.settle count

/-- A loop that is watched: as soon as it idles it is asked to end. -/
def runWatched (loop : ControlLoop) (count : Nat) : ControlLoop :=
  let settled := loop.settle count
  if settled.isIdle then (settled.interfere .cancel).settle count else settled

end ControlLoop
end SmallScale
