import SmallScale.Proofs.Machine.ControlLoop.Access

namespace SmallScale
namespace ControlLoop

/-!
# Requests for single steps

Every request that the loop takes is one that was made, and every cycle that it
executes while the run flag was found clear serves one request.  The number of
pending requests is a number of 32 bits, so requests are lost, but never invented,
when more are pending than it can hold.
-/

open Machine

variable {loop : ControlLoop} {machine : Machine}

/-! ## Cycles that were asked for one by one -/

/-- The run flag as it was found last, after an access. -/
def Access.flagAfter (running : Bool) : Access → Bool
  | .readFlag found => found
  | _ => running

/-- The number of cycles that were executed while the run flag was last found clear.
At first it counts as `running`. -/
def cyclesWhileHalted (running : Bool) : List Access → Nat
  | [] => 0
  | access :: later =>
      (if access = .cycle ∧ running = false then 1 else 0) +
        cyclesWhileHalted (access.flagAfter running) later

/-- The number of requests that were taken, in a list of accesses. -/
def requestsTaken (accesses : List Access) : Nat :=
  accesses.count (.readRequests true)

/-- The number of requests made by the surroundings. -/
def requestsMade (actions : List ControlAction) : Nat :=
  actions.count .requestStep

/-- The number of requests that are taken and whose cycle has not begun yet. -/
def owed (loop : ControlLoop) : Nat :=
  match loop.point with
  | .cycle true => 1
  | _ => 0

/-- Where the loop is agrees with the run flag as it was found last. -/
structure FlagFits (running : Bool) (loop : ControlLoop) : Prop where
  cycle : ∀ single, loop.point = .cycle single → running = !single
  takeRequest : loop.point = .takeRequest → running = false

theorem requestsTaken_accesses_cons (loop : ControlLoop) (actions : List ControlAction)
    (later : List (List ControlAction)) :
    requestsTaken (loop.accesses (actions :: later)) =
      requestsTaken [(actions.foldl interfere loop).access] +
        requestsTaken ((loop.advanceAfter actions).accesses later) := by
  rw [accesses, requestsTaken, ← List.singleton_append, List.count_append]
  rfl

theorem requestsMade_append (first second : List ControlAction) :
    requestsMade (first ++ second) = requestsMade first + requestsMade second :=
  List.count_append

variable {running : Bool}

theorem flagFits_entering (running : Bool) (machine : Machine) :
    FlagFits running (entering machine) where
  cycle := by
    intro single atCycle
    cases atCycle
  takeRequest := by
    intro atRequest
    cases atRequest

theorem FlagFits.interfere (fits : FlagFits running loop) (actions : List ControlAction) :
    FlagFits running (actions.foldl interfere loop) where
  cycle := by
    rw [point_interfere]
    exact fits.cycle
  takeRequest := by
    rw [point_interfere]
    exact fits.takeRequest

theorem FlagFits.advance (fits : FlagFits running loop) :
    FlagFits (loop.access.flagAfter running) loop.advance where
  cycle := by
    intro single atCycle
    have found := point_advance_eq_cycle_iff.mp atCycle
    cases single with
    | false =>
        rw [found]
        rfl
    | true =>
        rw [found]
        exact fits.takeRequest (access_eq_readRequests_iff.mp found).1
  takeRequest := by
    intro atRequest
    rw [point_advance_eq_takeRequest_iff.mp atRequest]
    rfl

theorem owed_interfere (loop : ControlLoop) (actions : List ControlAction) :
    (actions.foldl interfere loop).owed = loop.owed := by
  rw [owed, owed, point_interfere]

theorem owed_eq_one (atCycle : loop.point = .cycle true) : loop.owed = 1 := by
  rw [owed, atCycle]

theorem owed_eq_zero (elsewhere : loop.point ≠ .cycle true) : loop.owed = 0 := by
  unfold owed
  split
  · rename_i atCycle
    exact (elsewhere atCycle).elim
  · rfl

/-- A cycle that is owed is the next access. -/
theorem FlagFits.owed_eq (fits : FlagFits running loop) :
    loop.owed = if loop.access = .cycle ∧ running = false then 1 else 0 := by
  by_cases atCycle : loop.point = .cycle true
  · have isCycle := access_eq_cycle_iff.mpr ⟨true, atCycle⟩
    rw [owed_eq_one atCycle, if_pos ⟨isCycle, fits.cycle true atCycle⟩]
  · rw [owed_eq_zero atCycle, if_neg]
    rintro ⟨isCycle, clear⟩
    rcases access_eq_cycle_iff.mp isCycle with ⟨single, atOther⟩
    have asked := fits.cycle single atOther
    rw [clear] at asked
    cases single with
    | false => cases asked
    | true => exact atCycle atOther

/-- A cycle is owed behind every request that is taken. -/
theorem owed_advance (loop : ControlLoop) : loop.advance.owed = requestsTaken [loop.access] := by
  have taken : loop.advance.point = .cycle true ↔ loop.access = .readRequests true :=
    point_advance_eq_cycle_iff
  by_cases found : loop.access = .readRequests true
  · rw [owed_eq_one (taken.mpr found), requestsTaken, found]
    rfl
  · rw [owed_eq_zero fun atCycle => found (taken.mp atCycle), requestsTaken,
      List.count_singleton, if_neg]
    rwa [beq_iff_eq]

/-- The cycles executed while halted are those of the requests taken.  One of them
may still be owed. -/
theorem cyclesWhileHalted_accesses (fits : FlagFits running loop)
    (schedule : List (List ControlAction)) :
    cyclesWhileHalted running (loop.accesses schedule) + (loop.underSchedule schedule).owed =
      requestsTaken (loop.accesses schedule) + loop.owed := by
  induction schedule generalizing loop running with
  | nil => rfl
  | cons actions later ih =>
      have here := fits.interfere actions
      have others : cyclesWhileHalted _ ((loop.advanceAfter actions).accesses later) +
          ((loop.advanceAfter actions).underSchedule later).owed =
            requestsTaken ((loop.advanceAfter actions).accesses later) +
              (loop.advanceAfter actions).owed := ih here.advance
      have borrowed : (loop.advanceAfter actions).owed =
          requestsTaken [(actions.foldl interfere loop).access] := owed_advance _
      have paid := here.owed_eq
      rw [owed_interfere] at paid
      rw [requestsTaken_accesses_cons, accesses, cyclesWhileHalted, ← paid, ← borrowed,
        underSchedule_cons]
      omega

/-! ## Requests -/

/-- On the way from one number of pending requests to another so many were made and
so many taken.  The number is counted modulo `2 ^ 32`. -/
structure Balanced (before after : UInt32) (made taken : Nat) : Prop where
  le : after.toNat + taken ≤ before.toNat + made
  same_mod : (after.toNat + taken) % 2 ^ 32 = (before.toNat + made) % 2 ^ 32

namespace Balanced

variable {before middle after : UInt32} {made taken moreMade moreTaken : Nat}

theorem refl (pending : UInt32) : Balanced pending pending 0 0 :=
  ⟨Nat.le_refl _, rfl⟩

theorem trans (start : Balanced before middle made taken)
    (rest : Balanced middle after moreMade moreTaken) :
    Balanced before after (made + moreMade) (taken + moreTaken) where
  le := by
    have first := start.le
    have second := rest.le
    omega
  same_mod := by
    have first := start.same_mod
    have second := rest.same_mod
    omega

theorem request (pending : UInt32) : Balanced pending (pending + 1) 1 0 := by
  have sum : (pending + 1).toNat = (pending.toNat + 1) % 2 ^ 32 := UInt32.toNat_add pending 1
  constructor <;> omega

theorem take {pending : UInt32} (some : pending ≠ 0) : Balanced pending (pending - 1) 0 1 := by
  have atLeast : 1 ≤ pending.toNat := UInt32.lt_iff_toNat_lt.mp (UInt32.pos_iff_ne_zero.mpr some)
  have difference : (pending - 1).toNat = pending.toNat - 1 :=
    UInt32.toNat_sub_of_le _ _ (UInt32.le_iff_toNat_le.mpr atLeast)
  constructor <;> omega

/-- While fewer than `2 ^ 32` requests are pending, none is lost. -/
theorem exact (balanced : Balanced before after made taken)
    (few : before.toNat + made < taken + 2 ^ 32) : after.toNat + taken = before.toNat + made := by
  have bound := balanced.le
  have remainders := balanced.same_mod
  have small := after.toNat_lt
  omega

end Balanced

theorem balanced_act (machine : Machine) (action : ControlAction) :
    Balanced machine.controls.pending (machine.act action).controls.pending
      (requestsMade [action]) 0 := by
  cases action with
  | requestStep => exact .request machine.controls.pending
  | _ => exact .refl machine.controls.pending

theorem balanced_interfere (loop : ControlLoop) (actions : List ControlAction) :
    Balanced loop.machine.controls.pending
      (actions.foldl interfere loop).machine.controls.pending (requestsMade actions) 0 := by
  induction actions generalizing loop with
  | nil => exact .refl _
  | cons action later ih =>
      have acted := (balanced_act loop.machine action).trans (ih (loop.interfere action))
      rwa [← requestsMade_append] at acted

theorem pending_step (machine : Machine) :
    machine.step.1.controls.pending = machine.controls.pending := by
  rcases machine.exists_controls_step with ⟨running, written⟩
  rw [written]
  rfl

theorem balanced_advance (loop : ControlLoop) :
    Balanced loop.machine.controls.pending loop.advance.machine.controls.pending 0
      (requestsTaken [loop.access]) := by
  rcases loop with ⟨machine, point⟩
  cases point with
  | cycle single =>
      have kept := Balanced.refl machine.controls.pending
      rw [advance, machine_afterCycle, pending_step]
      exact kept
  | takeRequest =>
      by_cases none : machine.controls.pending = 0
      · have found : machine.controls.takeStep? = .none := if_pos none
        simp only [advance, access, found]
        exact .refl _
      · have found : machine.controls.takeStep? = some { machine.controls with
          pending := machine.controls.pending - 1 } := if_neg none
        simp only [advance, access, found]
        exact .take none
  | _ => exact .refl _

theorem balanced_underSchedule (loop : ControlLoop) (schedule : List (List ControlAction)) :
    Balanced loop.machine.controls.pending (loop.underSchedule schedule).machine.controls.pending
      (requestsMade schedule.flatten) (requestsTaken (loop.accesses schedule)) := by
  induction schedule generalizing loop with
  | nil => exact .refl _
  | cons actions later ih =>
      have disturbed := balanced_interfere loop actions
      have accessed := balanced_advance (actions.foldl interfere loop)
      have whole := (disturbed.trans accessed).trans (ih (loop.advanceAfter actions))
      rwa [Nat.add_zero, Nat.zero_add, ← requestsTaken_accesses_cons, ← requestsMade_append] at whole

end ControlLoop
end SmallScale
