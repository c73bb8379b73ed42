import SmallScale.Proofs.Machine.ControlLoop.Ending
import SmallScale.Proofs.Machine.ControlLoop.Requests

namespace SmallScale
namespace ControlLoop

/-!
# The loop and its surroundings

What the surroundings do between two accesses of the loop decides how many cycles
are executed and never what a cycle computes: the machine is at every moment the one
that so many cycles make of the first.
-/

open Machine

variable {loop : ControlLoop} {machine : Machine}

/-! ## What is computed -/

/-- One machine goes through the computation of another from a third one on, with
these outcomes. -/
structure Computes (start after : Machine) (outcomes : List Outcome) : Prop where
  same : SameComputation after (start.stepped outcomes.length)
  attempts : outcomes = (List.range outcomes.length).map start.attempt

namespace Computes

variable {start middle after : Machine} {first second : List Outcome}

theorem of_same (same : SameComputation after start) : Computes start after [] :=
  ⟨same, rfl⟩

theorem of_step (machine : Machine) : Computes machine machine.step.1 [machine.step.2] :=
  ⟨.refl _, rfl⟩

theorem trans (before : Computes start middle first) (later : Computes middle after second) :
    Computes start after (first ++ second) where
  same := by
    rw [List.length_append, stepped_add]
    exact later.same.trans (before.same.stepped _)
  attempts := by
    have shifted : second = (List.range second.length).map fun index =>
        start.attempt (first.length + index) := by
      conv => lhs; rw [later.attempts]
      apply List.map_congr_left
      intro index _
      rw [attempt_add, before.same.attempt]
    rw [List.length_append, List.range_add, List.map_append, List.map_map, ← before.attempts]
    exact congrArg (first ++ ·) shifted

end Computes

theorem computes_interfere (loop : ControlLoop) (actions : List ControlAction) :
    Computes loop.machine (actions.foldl interfere loop).machine [] := by
  induction actions generalizing loop with
  | nil => exact .of_same (.refl _)
  | cons action later ih => exact (Computes.of_same (.act loop.machine action)).trans (ih (loop.interfere action))

theorem computes_advance (loop : ControlLoop) :
    Computes loop.machine loop.advance.machine loop.outcome?.toList := by
  rcases loop with ⟨machine, point⟩
  cases point with
  | cycle single =>
      have stepped := Computes.of_step machine
      rw [← machine_afterCycle machine single] at stepped
      exact stepped
  | takeRequest =>
      simp only [advance]
      split
      · exact .of_same (.withControls machine _)
      · exact .of_same (.refl machine)
  | start => exact .of_same (.act machine _)
  | clearRunning result => exact .of_same (.act machine _)
  | clearCancelled result => exact .of_same (.act machine _)
  | testCancelled => exact .of_same (.refl machine)
  | testRunning => exact .of_same (.refl machine)
  | testStopped => exact .of_same (.refl machine)
  | retestCancelled => exact .of_same (.refl machine)
  | pace => exact .of_same (.refl machine)
  | idle => exact .of_same (.refl machine)
  | ended result => exact .of_same (.refl machine)

theorem computes_underSchedule (loop : ControlLoop) (schedule : List (List ControlAction)) :
    Computes loop.machine (loop.underSchedule schedule).machine (loop.outcomes schedule) := by
  induction schedule generalizing loop with
  | nil => exact .of_same (.refl _)
  | cons actions later ih =>
      have accessed := computes_advance (actions.foldl interfere loop)
      exact ((computes_interfere loop actions).trans accessed).trans (ih _)

/-! ## Failures -/

/-- The loop is on its way out. -/
inductive Leaving : LoopPoint → Prop where
  | clearRunning {result : Except MachineError Unit} : Leaving (.clearRunning result)
  | clearCancelled {result : Except MachineError Unit} : Leaving (.clearCancelled result)
  | ended {result : Except MachineError Unit} : Leaving (.ended result)

theorem Leaving.advance (leaving : Leaving loop.point) :
    Leaving loop.advance.point ∧ loop.outcome? = none := by
  rcases loop with ⟨machine, point⟩
  cases leaving with
  | clearRunning => exact ⟨.clearCancelled, rfl⟩
  | clearCancelled => exact ⟨.ended, rfl⟩
  | ended => exact ⟨.ended, rfl⟩

theorem outcomes_of_leaving (leaving : Leaving loop.point) (schedule : List (List ControlAction)) :
    loop.outcomes schedule = [] := by
  induction schedule generalizing loop with
  | nil => rfl
  | cons actions later ih =>
      have next : Leaving (actions.foldl interfere loop).point := by rwa [point_interfere]
      rw [outcomes, next.advance.2]
      exact ih next.advance.1

theorem leaving_of_failure {e : MachineError} (failed : loop.outcome? = some (.error e)) :
    Leaving loop.advance.point := by
  rcases loop with ⟨machine, point⟩
  cases point with
  | cycle single =>
      have failing : machine.step.2 = .error e := Option.some.inj failed
      have leaves := point_afterCycle_of_error failing single
      rw [advance, leaves]
      exact .clearRunning
  | _ => cases failed

/-- At most the last cycle of the loop fails. -/
theorem succeeds_before_last (loop : ControlLoop) (schedule : List (List ControlAction)) :
    ∀ outcome ∈ (loop.outcomes schedule).dropLast, ∃ executed, outcome = .ok executed := by
  induction schedule generalizing loop with
  | nil => exact List.forall_mem_nil _
  | cons actions later ih =>
      have others := ih (loop.advanceAfter actions)
      rw [outcomes]
      cases attempted : (actions.foldl interfere loop).outcome? with
      | none => exact others
      | some outcome =>
          cases outcome with
          | error e =>
              have leaving : Leaving (loop.advanceAfter actions).point :=
                leaving_of_failure attempted
              rw [outcomes_of_leaving leaving]
              exact List.forall_mem_nil _
          | ok executed =>
              cases rest : (loop.advanceAfter actions).outcomes later with
              | nil => exact List.forall_mem_nil _
              | cons next more =>
                  rw [rest] at others
                  exact List.forall_mem_cons.mpr ⟨⟨executed, rfl⟩, others⟩

/-! ## Any moment of a run -/

theorem length_outcomes (loop : ControlLoop) (schedule : List (List ControlAction)) :
    (loop.outcomes schedule).length = (loop.accesses schedule).count .cycle := by
  induction schedule generalizing loop with
  | nil => rfl
  | cons actions later ih =>
      have here : (actions.foldl interfere loop).outcome?.toList.length =
          [(actions.foldl interfere loop).access].count .cycle := by
        unfold outcome? access
        cases (actions.foldl interfere loop).point <;> rfl
      rw [outcomes, List.length_append, here, ih]
      exact List.count_append.symm

/-- What is settled about the loop that drives a machine, at the moment after a
schedule and some more actions of the surroundings. -/
structure OnlyDecidesHowOften (machine : Machine) (schedule : List (List ControlAction))
    (lately : List ControlAction) : Prop where
  /-- The machine is the one that as many cycles make as were attempted. -/
  computation : SameComputation (during machine schedule lately).machine
    (machine.stepped ((entering machine).outcomes schedule).length)
  /-- They had the outcomes of these cycles. -/
  attempts : (entering machine).outcomes schedule =
    (List.range ((entering machine).outcomes schedule).length).map machine.attempt
  succeeds_before_last : ∀ outcome ∈ ((entering machine).outcomes schedule).dropLast,
    ∃ executed, outcome = .ok executed
  /-- Each of them is an access of the loop. -/
  cycles : ((entering machine).outcomes schedule).length =
    ((entering machine).accesses schedule).count .cycle
  /-- Each of them comes directly behind a look at the set run flag or behind the one
  request that it serves, which was taken where the flag was found clear. -/
  starts : ((entering machine).accesses schedule).head? ≠ some .cycle
  causes : ((entering machine).accesses schedule).IsChain Access.Precedes
  /-- The cycles executed while the flag was found clear are those of the requests
  taken.  Between taking a request and its cycle, one is owed. -/
  served : cyclesWhileHalted true ((entering machine).accesses schedule) +
      (during machine schedule lately).owed =
    requestsTaken ((entering machine).accesses schedule)
  /-- No request is taken that was not made. -/
  asked : (during machine schedule lately).machine.controls.pending.toNat +
      requestsTaken ((entering machine).accesses schedule) ≤
    machine.controls.pending.toNat + requestsMade (schedule.flatten ++ lately)
  /-- While fewer than `2 ^ 32` requests are pending, none is lost. -/
  kept : machine.controls.pending.toNat + requestsMade (schedule.flatten ++ lately) <
      requestsTaken ((entering machine).accesses schedule) + 2 ^ 32 →
    (during machine schedule lately).machine.controls.pending.toNat +
        requestsTaken ((entering machine).accesses schedule) =
      machine.controls.pending.toNat + requestsMade (schedule.flatten ++ lately)
  /-- Once the end is asked for and not withdrawn, at most one more cycle begins and
  the loop ends. -/
  ends : (during machine schedule lately).machine.controls.cancelled = true →
    ∀ later : List (List ControlAction), .withdrawCancel ∉ later.flatten →
      ((during machine schedule lately).outcomes later).length ≤ 1 ∧
        (6 ≤ later.length →
          ((during machine schedule lately).underSchedule later).result?.isSome = true)

/-- Whatever the surroundings do between any two accesses of the loop, they decide
how many cycles are executed and not what the cycles compute. -/
theorem surroundings_only_decide_how_often (machine : Machine)
    (schedule : List (List ControlAction)) (lately : List ControlAction) :
    OnlyDecidesHowOften machine schedule lately := by
  have ran := computes_underSchedule (entering machine) schedule
  have disturbed := computes_interfere ((entering machine).underSchedule schedule) lately
  have computed : Computes machine (during machine schedule lately).machine
      ((entering machine).outcomes schedule) := by
    have whole := ran.trans disturbed
    rwa [List.append_nil] at whole
  have balanced := (balanced_underSchedule (entering machine) schedule).trans
    (balanced_interfere ((entering machine).underSchedule schedule) lately)
  rw [Nat.add_zero, ← requestsMade_append] at balanced
  have counted := cyclesWhileHalted_accesses (flagFits_entering true machine) schedule
  refine ⟨computed.same, computed.attempts, succeeds_before_last _ schedule,
    length_outcomes _ schedule, ?_, isChain_accesses _ schedule, ?_, balanced.le, balanced.exact,
    ?_⟩
  · intro atCycle
    cases schedule with
    | nil => cases atCycle
    | cons actions later =>
        rcases access_eq_cycle_iff.mp (Option.some.inj atCycle) with ⟨single, here⟩
        rw [point_interfere] at here
        cases here
  · rw [during, owed_interfere]
    exact counted
  · intro asked later standing
    have ending : (during machine schedule lately).Ending := .inl asked
    rcases ending.closes_underSchedule standing with ⟨cycles, remaining⟩
    refine ⟨Nat.le_trans cycles (LoopPoint.cyclesLeft_le _), ?_⟩
    intro long
    have few := LoopPoint.accessesLeft_le (during machine schedule lately).point
    exact ended_of_accessesLeft (by omega)

/-- The one cycle is executed where the end is asked for right behind the look at the
run flag. -/
example : ((during (initial .smallScale) [[], [], []] [.cancel]).outcomes
    (List.replicate 6 [])).length = 1 := by
  decide +kernel

end ControlLoop
end SmallScale
