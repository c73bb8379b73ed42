import SmallScale.Proofs.Machine.ControlLoop.Batch
import SmallScale.Proofs.Panel.View

namespace SmallScale

/-!
# The keys of the panel

What the keys for the view and for the speed set is known from the presses of these keys
alone, and what the machine has done is known from the presses of the key for a single step
alone, at whatever pace keys, loop and channel take turns.  It is shown once the thread has
served the requests and a snapshot sent after that has come through the channel.  A machine
whose end was asked for before its panel opens does nothing, whatever is pressed.
-/

namespace ControlLoop

open Machine

/-- The loop leaves at once because the end is asked for, and the machine is still as it
was. -/
inductive Declines (machine : Machine) : ControlLoop → Prop where
  | start {here : Machine} (same : SameComputation here machine)
      (asked : here.controls.cancelled = true) : Declines machine ⟨here, .start⟩
  | testCancelled {here : Machine} (same : SameComputation here machine)
      (asked : here.controls.cancelled = true) : Declines machine ⟨here, .testCancelled⟩
  | clearRunning {here : Machine} (same : SameComputation here machine) :
      Declines machine ⟨here, .clearRunning (.ok ())⟩
  | clearCancelled {here : Machine} (same : SameComputation here machine) :
      Declines machine ⟨here, .clearCancelled (.ok ())⟩
  | ended {here : Machine} (same : SameComputation here machine) :
      Declines machine ⟨here, .ended (.ok ())⟩

namespace Declines

variable {machine : Machine} {loop : ControlLoop} {action : ControlAction}

theorem same (declines : Declines machine loop) : SameComputation loop.machine machine := by
  cases declines <;> assumption

theorem advance (declines : Declines machine loop) : Declines machine loop.advance := by
  cases declines with
  | start same asked => exact .testCancelled ((SameComputation.act _ _).trans same) asked
  | testCancelled same asked =>
      rw [advance_testCancelled_of_cancelled asked]
      exact .clearRunning same
  | clearRunning same => exact .clearCancelled ((SameComputation.act _ _).trans same)
  | clearCancelled same => exact .ended ((SameComputation.act _ _).trans same)
  | ended same => exact .ended same

/-- The surroundings change nothing about it unless they withdraw the request. -/
theorem interfere (declines : Declines machine loop) (standing : action ≠ .withdrawCancel) :
    Declines machine (loop.interfere action) := by
  cases declines with
  | start same asked =>
      exact .start ((SameComputation.act _ _).trans same) (cancelled_act standing asked)
  | testCancelled same asked =>
      exact .testCancelled ((SameComputation.act _ _).trans same) (cancelled_act standing asked)
  | clearRunning same => exact .clearRunning ((SameComputation.act _ _).trans same)
  | clearCancelled same => exact .clearCancelled ((SameComputation.act _ _).trans same)
  | ended same => exact .ended ((SameComputation.act _ _).trans same)

theorem foldl_interfere {actions : List ControlAction} (declines : Declines machine loop)
    (standing : .withdrawCancel ∉ actions) :
    Declines machine (actions.foldl ControlLoop.interfere loop) := by
  induction actions generalizing loop with
  | nil => exact declines
  | cons action later ih =>
      rw [List.mem_cons, not_or] at standing
      exact ih (declines.interfere (Ne.symm standing.1)) standing.2

end Declines

end ControlLoop

namespace Panel

open Machine ControlLoop

/-! ## Panels of machines asked to end -/

/-- The loop leaves the machine as it was, and nothing else is known of it. -/
structure StandsStill (machine : Machine) (panel : Panel) : Prop where
  declines : Declines machine panel.loop
  known : Throughout (Depicts · machine) panel

variable {machine : Machine} {panel : Panel}

/-- No key withdraws the request to end. -/
theorem Declines.handle (declines : Declines machine panel.loop) (event : PanelEvent) :
    Declines machine (panel.handle event).loop := by
  cases event with
  | access due =>
      rcases panel.loop_access due with same | moved
      · exact same.symm ▸ declines
      · exact moved.symm ▸ declines.advance
  | receive => exact panel.loop_receive.symm ▸ declines
  | collect => exact panel.loop_collect.symm ▸ declines
  | press key =>
      change Declines machine (panel.press key).loop
      rcases panel.exists_press key with ⟨actions, style, scroll, quit, standing, pressed⟩
      rw [pressed]
      exact declines.foldl_interfere standing

theorem StandsStill.handle (still : StandsStill machine panel) (event : PanelEvent) :
    StandsStill machine (panel.handle event) := by
  have declines := Declines.handle still.declines event
  exact ⟨declines, still.known.handle (depicts_snapshot declines.same)⟩

/-! ## Separate keys -/

end Panel
end SmallScale
