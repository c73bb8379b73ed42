import SmallScale.Proofs.Machine.ControlLoop.Access

namespace SmallScale

/-!
# The end of the loop

The loop looks at the request to end before every cycle, but the surroundings may
ask right behind that look.  One more cycle is then executed.  How many cycles and
accesses are left depends on the point of the loop alone, and each access brings the
end nearer, whatever the surroundings do short of withdrawing the request.
-/

namespace LoopPoint

/-- How many cycles may still begin once the end is asked for. -/
def cyclesLeft : LoopPoint → Nat
  | .testRunning | .takeRequest | .cycle _ => 1
  | _ => 0

/-- How many accesses may still be made once the end is asked for. -/
def accessesLeft : LoopPoint → Nat
  | .testRunning => 6
  | .takeRequest | .cycle false => 5
  | .start | .cycle true | .testStopped | .pace | .idle => 4
  | .testCancelled | .retestCancelled => 3
  | .clearRunning _ => 2
  | .clearCancelled _ => 1
  | .ended _ => 0

theorem accessesLeft_le (point : LoopPoint) : point.accessesLeft ≤ 6 := by
  cases point with
  | cycle single => cases single <;> decide
  | _ => simp [accessesLeft]

theorem cyclesLeft_le (point : LoopPoint) : point.cyclesLeft ≤ 1 := by
  cases point <;> simp [cyclesLeft]

end LoopPoint

namespace ControlLoop

open Machine

variable {loop : ControlLoop} {machine : Machine}

/-- The end is asked for or reached. -/
def Ending (loop : ControlLoop) : Prop :=
  loop.machine.controls.cancelled = true ∨ loop.result?.isSome = true

/-- Only its withdrawal ends the request. -/
theorem cancelled_act {action : ControlAction} (standing : action ≠ .withdrawCancel)
    (asked : machine.controls.cancelled = true) : (machine.act action).controls.cancelled = true := by
  cases action with
  | cancel => rfl
  | withdrawCancel => exact (standing rfl).elim
  | _ => exact asked

theorem Ending.interfere (ending : loop.Ending) {actions : List ControlAction}
    (standing : .withdrawCancel ∉ actions) : (actions.foldl interfere loop).Ending := by
  induction actions generalizing loop with
  | nil => exact ending
  | cons action later ih =>
      rw [List.mem_cons, not_or] at standing
      apply ih _ standing.2
      rcases ending with asked | reached
      · exact .inl (cancelled_act (Ne.symm standing.1) asked)
      · exact .inr reached

/-- What one access does to a loop whose end is asked for. -/
structure Closes (loop : ControlLoop) : Prop where
  ending : loop.advance.Ending
  cycles : loop.outcome?.toList.length + loop.advance.point.cyclesLeft ≤ loop.point.cyclesLeft
  accesses : loop.advance.point.accessesLeft ≤ loop.point.accessesLeft - 1

theorem closes_of_next (after : Machine) (next : LoopPoint) (moved : loop.advance = ⟨after, next⟩)
    (asked : after.controls.cancelled = true) (noCycle : loop.outcome? = none)
    (cycles : next.cyclesLeft ≤ loop.point.cyclesLeft)
    (accesses : next.accessesLeft ≤ loop.point.accessesLeft - 1) : Closes loop := by
  constructor <;> rw [moved]
  · exact .inl asked
  · rw [noCycle]
    exact (Nat.zero_add _).trans_le cycles
  · exact accesses

theorem closes_cycle (asked : machine.controls.cancelled = true) (single : Bool) :
    Closes ⟨machine, .cycle single⟩ := by
  have stillAsked : (afterCycle machine single).machine.controls.cancelled = true := by
    rcases machine.exists_controls_step with ⟨running, written⟩
    rw [machine_afterCycle, written]
    exact asked
  have behind : (afterCycle machine single).point.cyclesLeft = 0 ∧
      (afterCycle machine single).point.accessesLeft ≤
        (LoopPoint.cycle single).accessesLeft - 1 := by
    cases outcome : machine.step.2 with
    | error e =>
        rw [point_afterCycle_of_error outcome]
        cases single <;> simp [LoopPoint.cyclesLeft, LoopPoint.accessesLeft]
    | ok executed =>
        rw [point_afterCycle_of_ok outcome]
        cases single <;> simp [LoopPoint.cyclesLeft, LoopPoint.accessesLeft]
  exact ⟨.inl stillAsked, Nat.le_of_eq (congrArg (1 + ·) behind.1), behind.2⟩

/-- Taking a request changes nothing else in the controls. -/
theorem eq_of_takeStep? {controls after : Controls} (taken : controls.takeStep? = some after) :
    after = { controls with pending := controls.pending - 1 } := by
  unfold Controls.takeStep? at taken
  split at taken
  · cases taken
  · exact (Option.some.inj taken).symm

/-- From each point of the loop the next access is one towards the end. -/
theorem Ending.closes (ending : loop.Ending) : Closes loop := by
  rcases loop with ⟨machine, point⟩
  by_cases isEnd : ∃ result, point = .ended result
  · rcases isEnd with ⟨result, rfl⟩
    exact ⟨.inr rfl, Nat.le_refl 0, Nat.le_refl 0⟩
  have asked : machine.controls.cancelled = true := by
    rcases ending with asked | reached
    · exact asked
    · cases point with
      | ended result => exact (isEnd ⟨result, rfl⟩).elim
      | _ => cases reached
  cases point with
  | start => exact ⟨.inl asked, Nat.le_refl 0, Nat.le_refl 3⟩
  | testCancelled =>
      have moved := advance_testCancelled_of_cancelled asked
      exact closes_of_next _ _ moved asked rfl (Nat.le_refl 0) (Nat.le_refl 2)
  | testRunning =>
      cases running : machine.controls.running with
      | false =>
          have moved := advance_testRunning_of_halted running
          exact closes_of_next _ _ moved asked rfl (Nat.le_refl 1) (Nat.le_refl 5)
      | true =>
          have moved := advance_testRunning running
          exact closes_of_next _ _ moved asked rfl (Nat.le_refl 1) (Nat.le_refl 5)
  | takeRequest =>
      cases taken : machine.controls.takeStep? with
      | none =>
          have moved := advance_takeRequest_of_none taken
          exact closes_of_next _ _ moved asked rfl (Nat.zero_le 1) (Nat.le_refl 4)
      | some controls =>
          have moved := advance_takeRequest taken
          have stillAsked : controls.cancelled = true := by
            rw [eq_of_takeStep? taken]
            exact asked
          exact closes_of_next _ _ moved stillAsked rfl (Nat.le_refl 1) (Nat.le_refl 4)
  | cycle single => exact closes_cycle asked single
  | testStopped =>
      cases running : machine.controls.running with
      | false =>
          have moved := advance_testStopped_of_halted running
          exact closes_of_next _ _ moved asked rfl (Nat.le_refl 0) (Nat.le_refl 3)
      | true =>
          have moved := advance_testStopped running
          exact closes_of_next _ _ moved asked rfl (Nat.le_refl 0) (Nat.le_refl 3)
  | retestCancelled =>
      have moved := advance_retestCancelled_of_cancelled asked
      exact closes_of_next _ _ moved asked rfl (Nat.le_refl 0) (Nat.le_refl 2)
  | pace => exact ⟨.inl asked, Nat.le_refl 0, Nat.le_refl 3⟩
  | idle => exact ⟨.inl asked, Nat.le_refl 0, Nat.le_refl 3⟩
  | clearRunning result => exact ⟨.inl asked, Nat.le_refl 0, Nat.le_refl 1⟩
  | clearCancelled result => exact ⟨.inr rfl, Nat.le_refl 0, Nat.le_refl 0⟩
  | ended result => exact (isEnd ⟨result, rfl⟩).elim

/-- Once the end is asked for and not withdrawn, at most one more cycle begins and
the loop ends within six accesses. -/
theorem Ending.closes_underSchedule (ending : loop.Ending) {later : List (List ControlAction)}
    (standing : .withdrawCancel ∉ later.flatten) :
    (loop.outcomes later).length ≤ loop.point.cyclesLeft ∧
      (loop.underSchedule later).point.accessesLeft ≤ loop.point.accessesLeft - later.length := by
  induction later generalizing loop with
  | nil => exact ⟨Nat.zero_le _, Nat.le_refl _⟩
  | cons actions later ih =>
      rw [List.flatten_cons, List.mem_append, not_or] at standing
      have closes := (ending.interfere standing.1).closes
      have others : ((loop.advanceAfter actions).outcomes later).length ≤
          (loop.advanceAfter actions).point.cyclesLeft ∧
            ((loop.advanceAfter actions).underSchedule later).point.accessesLeft ≤
              (loop.advanceAfter actions).point.accessesLeft - later.length :=
        ih closes.ending standing.2
      have cycles := closes.cycles
      have accesses := closes.accesses
      rw [point_interfere] at cycles accesses
      change _ + (loop.advanceAfter actions).point.cyclesLeft ≤ _ at cycles
      change (loop.advanceAfter actions).point.accessesLeft ≤ _ at accesses
      rw [outcomes, List.length_append, underSchedule_cons, List.length_cons]
      omega

theorem ended_of_accessesLeft (none : loop.point.accessesLeft = 0) : loop.result?.isSome = true := by
  rcases loop with ⟨machine, point⟩
  cases point with
  | ended result => rfl
  | cycle single => cases single <;> cases none
  | _ => cases none

end ControlLoop
end SmallScale
