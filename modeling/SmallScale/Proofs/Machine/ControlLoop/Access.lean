import Mathlib.Data.List.Chain
import SmallScale.Proofs.Machine.Cycles

namespace SmallScale
namespace ControlLoop

/-!
# The accesses of the loop

The loop makes one access to the controls after the other, and the surroundings may
do anything to them in between.  The list of its accesses tells what the loop found
in the controls and where it executed a cycle, and from it one can read why.  The
facts about the list are proved for one access at first, from any point of the loop
and with any controls.
-/

open Machine

/-- What the loop finds or does in one access, as far as cycles depend on it. -/
inductive Access where
  | readFlag (running : Bool)
  | readRequests (taken : Bool)
  | cycle
  | other
deriving DecidableEq

/-- The next access of the loop. -/
def access (loop : ControlLoop) : Access :=
  match loop.point with
  | .testRunning => .readFlag loop.machine.controls.running
  | .takeRequest => .readRequests loop.machine.controls.takeStep?.isSome
  | .cycle _ => .cycle
  | _ => .other

/-- The accesses of the loop under a schedule. -/
def accesses (loop : ControlLoop) : List (List ControlAction) → List Access
  | [] => []
  | actions :: later =>
      (actions.foldl interfere loop).access :: (loop.advanceAfter actions).accesses later

/-- The loop that drives a machine after the accesses of a schedule and after what
the surroundings have done since the last of them. -/
def during (machine : Machine) (schedule : List (List ControlAction))
    (lately : List ControlAction) : ControlLoop :=
  lately.foldl interfere ((entering machine).underSchedule schedule)

variable {loop : ControlLoop} {machine : Machine} {single : Bool}

theorem point_interfere (loop : ControlLoop) (actions : List ControlAction) :
    (actions.foldl interfere loop).point = loop.point := by
  induction actions generalizing loop with
  | nil => rfl
  | cons action later ih => exact ih (loop.interfere action)

theorem underSchedule_cons (loop : ControlLoop) (actions : List ControlAction)
    (later : List (List ControlAction)) :
    loop.underSchedule (actions :: later) = (loop.advanceAfter actions).underSchedule later :=
  rfl

theorem afterCycle_of_error {e : MachineError} (failed : machine.step.2 = .error e)
    (single : Bool) : afterCycle machine single = ⟨machine.step.1, .clearRunning (.error e)⟩ := by
  rw [afterCycle, step_eq_pair failed]

theorem afterCycle_of_ok {executed : Executed} (succeeded : machine.step.2 = .ok executed)
    (single : Bool) :
    afterCycle machine single =
      ⟨machine.step.1, if single then .testCancelled else .testStopped⟩ := by
  rw [afterCycle, step_eq_pair succeeded]

theorem machine_afterCycle (machine : Machine) (single : Bool) :
    (afterCycle machine single).machine = machine.step.1 := by
  cases outcome : machine.step.2 with
  | error e => rw [afterCycle_of_error outcome]
  | ok executed => rw [afterCycle_of_ok outcome]

theorem point_afterCycle_of_error {e : MachineError} (failed : machine.step.2 = .error e)
    (single : Bool) : (afterCycle machine single).point = .clearRunning (.error e) :=
  congrArg point (afterCycle_of_error failed single)

theorem point_afterCycle_of_ok {executed : Executed} (succeeded : machine.step.2 = .ok executed)
    (single : Bool) :
    (afterCycle machine single).point = if single then .testCancelled else .testStopped :=
  congrArg point (afterCycle_of_ok succeeded single)

/-- Behind a cycle the loop leaves or looks at one of the flags. -/
theorem point_afterCycle (machine : Machine) (single : Bool) :
    (∃ e, (afterCycle machine single).point = .clearRunning (.error e)) ∨
      (afterCycle machine single).point = .testCancelled ∨
        (afterCycle machine single).point = .testStopped := by
  cases outcome : machine.step.2 with
  | error e => exact .inl ⟨e, point_afterCycle_of_error outcome single⟩
  | ok executed =>
      rw [point_afterCycle_of_ok outcome]
      cases single with
      | false => exact .inr (.inr rfl)
      | true => exact .inr (.inl rfl)

section

variable {controls : Controls}

theorem advance_testCancelled (notAsked : machine.controls.cancelled = false) :
    advance ⟨machine, .testCancelled⟩ = ⟨machine, .testRunning⟩ := by
  simp [advance, notAsked]

theorem advance_testCancelled_of_cancelled (asked : machine.controls.cancelled = true) :
    advance ⟨machine, .testCancelled⟩ = ⟨machine, .clearRunning (.ok ())⟩ := by
  simp [advance, asked]

theorem advance_testRunning (running : machine.controls.running = true) :
    advance ⟨machine, .testRunning⟩ = ⟨machine, .cycle false⟩ := by
  simp [advance, running]

theorem advance_testRunning_of_halted (halted : machine.controls.running = false) :
    advance ⟨machine, .testRunning⟩ = ⟨machine, .takeRequest⟩ := by
  simp [advance, halted]

theorem advance_takeRequest (taken : machine.controls.takeStep? = some controls) :
    advance ⟨machine, .takeRequest⟩ = ⟨machine.withControls controls, .cycle true⟩ := by
  simp [advance, taken]

theorem advance_takeRequest_of_none (none : machine.controls.takeStep? = none) :
    advance ⟨machine, .takeRequest⟩ = ⟨machine, .idle⟩ := by
  simp [advance, none]

theorem advance_testStopped (running : machine.controls.running = true) :
    advance ⟨machine, .testStopped⟩ = ⟨machine, .retestCancelled⟩ := by
  simp [advance, running]

theorem advance_testStopped_of_halted (halted : machine.controls.running = false) :
    advance ⟨machine, .testStopped⟩ = ⟨machine, .testCancelled⟩ := by
  simp [advance, halted]

theorem advance_retestCancelled (notAsked : machine.controls.cancelled = false) :
    advance ⟨machine, .retestCancelled⟩ = ⟨machine, .pace⟩ := by
  simp [advance, notAsked]

theorem advance_retestCancelled_of_cancelled (asked : machine.controls.cancelled = true) :
    advance ⟨machine, .retestCancelled⟩ = ⟨machine, .clearRunning (.ok ())⟩ := by
  simp [advance, asked]

end

/-! ## Why cycles are executed -/

/-- What one access of the loop has to do with the next.  A cycle comes directly
behind a look at the run flag that found it set, or behind a request that was taken.
A request is taken only where the flag was found clear, and its cycle follows. -/
structure Access.Precedes (earlier later : Access) : Prop where
  cause : later = .cycle → earlier = .readFlag true ∨ earlier = .readRequests true
  served : earlier = .readRequests true → later = .cycle
  halted : ∀ taken, later = .readRequests taken → earlier = .readFlag false

theorem access_eq_cycle_iff : loop.access = .cycle ↔ ∃ single, loop.point = .cycle single := by
  rcases loop with ⟨machine, point⟩
  cases point <;> simp [access]

theorem access_eq_readRequests_iff {taken : Bool} :
    loop.access = .readRequests taken ↔
      loop.point = .takeRequest ∧ loop.machine.controls.takeStep?.isSome = taken := by
  rcases loop with ⟨machine, point⟩
  cases point <;> simp [access]

theorem point_advance_eq_cycle_iff :
    loop.advance.point = .cycle single ↔
      loop.access = if single then .readRequests true else .readFlag true := by
  rcases loop with ⟨machine, point⟩
  cases point with
  | testRunning =>
      cases running : machine.controls.running <;> cases single <;> simp [advance, access, running]
  | takeRequest =>
      cases taken : machine.controls.takeStep? <;> cases single <;> simp [advance, access, taken]
  | cycle other =>
      rcases point_afterCycle machine other with ⟨e, next⟩ | next | next <;>
        cases single <;> simp [advance, access, next]
  | _ => cases single <;> simp [advance, access] <;> split <;> simp

theorem point_advance_eq_takeRequest_iff :
    loop.advance.point = .takeRequest ↔ loop.access = .readFlag false := by
  rcases loop with ⟨machine, point⟩
  cases point with
  | testRunning => cases running : machine.controls.running <;> simp [advance, access, running]
  | takeRequest => cases taken : machine.controls.takeStep? <;> simp [advance, access, taken]
  | cycle other =>
      rcases point_afterCycle machine other with ⟨e, next⟩ | next | next <;>
        simp [advance, access, next]
  | _ => simp [advance, access] <;> split <;> simp

theorem precedes_advance (loop : ControlLoop) (actions : List ControlAction) :
    loop.access.Precedes (actions.foldl interfere loop.advance).access where
  cause := by
    intro isCycle
    rcases access_eq_cycle_iff.mp isCycle with ⟨single, atCycle⟩
    rw [point_interfere] at atCycle
    have found := point_advance_eq_cycle_iff.mp atCycle
    cases single with
    | false => exact .inl found
    | true => exact .inr found
  served := by
    intro taken
    apply access_eq_cycle_iff.mpr
    rw [point_interfere]
    exact ⟨true, point_advance_eq_cycle_iff.mpr taken⟩
  halted := by
    intro taken isRequest
    have atRequest := (access_eq_readRequests_iff.mp isRequest).1
    rw [point_interfere] at atRequest
    exact point_advance_eq_takeRequest_iff.mp atRequest

theorem isChain_accesses (loop : ControlLoop) (schedule : List (List ControlAction)) :
    (loop.accesses schedule).IsChain Access.Precedes := by
  induction schedule generalizing loop with
  | nil => exact .nil
  | cons actions later ih =>
      have others := ih (loop.advanceAfter actions)
      cases later with
      | nil => exact .singleton _
      | cons next more => exact .cons_cons (precedes_advance _ next) others

end ControlLoop
end SmallScale
