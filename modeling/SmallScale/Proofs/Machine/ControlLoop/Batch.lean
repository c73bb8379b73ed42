import SmallScale.Proofs.Machine.ControlLoop.Interleaving
import SmallScale.Proofs.Machine.ControlLoop.Settling

namespace SmallScale
namespace ControlLoop

/-!
# The loop and batch execution

Where a free run of the machine ends, the loop and batch execution agree: the
machine is left in the same state by both, and with the same error.  The loop takes
requests only while the machine is halted, does nothing where the end was asked for
before it started, and clears the flags on every way out.
-/

open Machine

/-- An action that may set the run flag. -/
inductive Resumes : ControlAction → Prop where
  | setRunning : Resumes (.setRunning true)
  | toggleRunning : Resumes .toggleRunning

variable {loop : ControlLoop} {machine : Machine} {action : ControlAction}
  {actions : List ControlAction} {result : Except MachineError Unit}

theorem halted_act (noResume : ¬ Resumes action) (halted : machine.controls.running = false) :
    (machine.act action).controls.running = false := by
  cases action with
  | setRunning running =>
      cases running with
      | false => rfl
      | true => exact (noResume .setRunning).elim
  | toggleRunning => exact (noResume .toggleRunning).elim
  | _ => exact halted

theorem notCancelled_act (noCancel : action ≠ .cancel)
    (notCancelled : machine.controls.cancelled = false) :
    (machine.act action).controls.cancelled = false := by
  cases action with
  | cancel => exact (noCancel rfl).elim
  | withdrawCancel => rfl
  | _ => exact notCancelled

/-- What every action of the surroundings keeps is kept between two accesses. -/
theorem interfere_keeps (kept : Machine → Prop)
    (keptByAct : ∀ action ∈ actions, ∀ machine, kept machine → kept (machine.act action))
    (keeps : kept loop.machine) : kept (actions.foldl interfere loop).machine := by
  induction actions generalizing loop with
  | nil => exact keeps
  | cons action later ih =>
      rcases List.forall_mem_cons.mp keptByAct with ⟨here, others⟩
      exact ih others (here loop.machine keeps)

theorem halted_interfere (noResume : ∀ action ∈ actions, ¬ Resumes action)
    (halted : loop.machine.controls.running = false) :
    (actions.foldl interfere loop).machine.controls.running = false :=
  interfere_keeps (fun machine => machine.controls.running = false)
    (fun action member _ => halted_act (noResume action member)) halted

theorem notCancelled_interfere (noCancel : .cancel ∉ actions)
    (notCancelled : loop.machine.controls.cancelled = false) :
    (actions.foldl interfere loop).machine.controls.cancelled = false :=
  interfere_keeps (fun machine => machine.controls.cancelled = false)
    (fun _ member _ => notCancelled_act (ne_of_mem_of_not_mem member noCancel)) notCancelled

/-! ## Where requests are taken -/

theorem halted_of_advance_eq_takeRequest (atRequest : loop.advance.point = .takeRequest) :
    loop.advance.machine.controls.running = false := by
  rcases loop with ⟨machine, point⟩
  have found := point_advance_eq_takeRequest_iff.mp atRequest
  cases point with
  | testRunning => exact Access.readFlag.inj found
  | _ => cases found

/-- The run flag is found clear right before a request is taken.  Only what the
surroundings do since then can have set it. -/
theorem halted_during (schedule : List (List ControlAction))
    (noResume : ∀ action ∈ actions, ¬ Resumes action)
    (atRequest : (during machine schedule actions).point = .takeRequest) :
    (during machine schedule actions).machine.controls.running = false := by
  apply halted_interfere noResume
  rw [during, point_interfere] at atRequest
  cases schedule using List.reverseRecOn with
  | nil => cases atRequest
  | append_singleton before last =>
      rw [underSchedule, List.foldl_append] at atRequest ⊢
      exact halted_of_advance_eq_takeRequest atRequest

theorem pending_advance (untaken : loop.access ≠ .readRequests true) :
    loop.advance.machine.controls.pending = loop.machine.controls.pending := by
  have none : requestsTaken [loop.access] = 0 := by
    rwa [requestsTaken, List.count_eq_zero, List.mem_singleton, eq_comm]
  have balanced := loop.balanced_advance
  rw [none] at balanced
  exact UInt32.toNat_inj.mp (balanced.exact (Nat.add_lt_add_right loop.machine.controls.pending.toNat_lt _))

/-! ## The way out -/

/-- The loop has yet to clear the flags. -/
def Uncleared (loop : ControlLoop) : Prop :=
  ∀ result, loop.point ≠ .clearCancelled result ∧ loop.point ≠ .ended result

/-- What the loop has cleared is clear. -/
structure Cleared (loop : ControlLoop) : Prop where
  clearCancelled : ∀ result, loop.point = .clearCancelled result →
    loop.machine.controls.running = false
  ended : ∀ result, loop.point = .ended result →
    loop.machine.controls.running = false ∧ loop.machine.controls.cancelled = false

theorem point_advance_eq_clearCancelled_iff :
    loop.advance.point = .clearCancelled result ↔ loop.point = .clearRunning result := by
  rcases loop with ⟨machine, point⟩
  cases point with
  | takeRequest => cases taken : machine.controls.takeStep? <;> simp [advance, taken]
  | cycle single =>
      rcases point_afterCycle machine single with ⟨e, next⟩ | next | next <;> simp [advance, next]
  | _ => simp [advance] <;> split <;> simp

theorem point_advance_eq_ended_iff :
    loop.advance.point = .ended result ↔
      loop.point = .clearCancelled result ∨ loop.point = .ended result := by
  rcases loop with ⟨machine, point⟩
  cases point with
  | takeRequest => cases taken : machine.controls.takeStep? <;> simp [advance, taken]
  | cycle single =>
      rcases point_afterCycle machine single with ⟨e, next⟩ | next | next <;> simp [advance, next]
  | _ => simp [advance] <;> split <;> simp

theorem Uncleared.cleared (uncleared : Uncleared loop) : Cleared loop :=
  ⟨fun result here => ((uncleared result).1 here).elim,
    fun result here => ((uncleared result).2 here).elim⟩

theorem Cleared.interfere (cleared : Cleared loop) (noResume : ∀ action ∈ actions, ¬ Resumes action)
    (noCancel : .cancel ∉ actions) : Cleared (actions.foldl interfere loop) where
  clearCancelled := by
    intro result here
    rw [point_interfere] at here
    exact halted_interfere noResume (cleared.clearCancelled result here)
  ended := by
    intro result here
    rw [point_interfere] at here
    rcases cleared.ended result here with ⟨halted, notCancelled⟩
    exact ⟨halted_interfere noResume halted, notCancelled_interfere noCancel notCancelled⟩

theorem Cleared.advance (cleared : Cleared loop) : Cleared loop.advance where
  clearCancelled := by
    intro result next
    have here := point_advance_eq_clearCancelled_iff.mp next
    rcases loop with ⟨machine, point⟩
    cases here
    rfl
  ended := by
    intro result next
    rcases point_advance_eq_ended_iff.mp next with here | here
    · have halted := cleared.clearCancelled result here
      rcases loop with ⟨machine, point⟩
      cases here
      exact ⟨halted, rfl⟩
    · have clear := cleared.ended result here
      rcases loop with ⟨machine, point⟩
      cases here
      exact clear

theorem Cleared.underSchedule (cleared : Cleared loop) {later : List (List ControlAction)}
    (noResume : ∀ action ∈ later.flatten, ¬ Resumes action) (noCancel : .cancel ∉ later.flatten) :
    Cleared (loop.underSchedule later) := by
  induction later generalizing loop with
  | nil => exact cleared
  | cons actions later ih =>
      rw [List.flatten_cons] at noResume noCancel
      rw [List.mem_append, not_or] at noCancel
      rcases List.forall_mem_append.mp noResume with ⟨here, others⟩
      exact ih (cleared.interfere here noCancel.1).advance others noCancel.2

/-! ## Agreement -/

/-- What the loop that drives a machine has in common with batch execution. -/
structure AgreesWithBatch (machine : Machine) : Prop where
  /-- Asked to end as soon as it idles, the loop ends with the result of a bounded run
  with single steps behind it.  It leaves the same machine and has taken the requests
  whose step was attempted. -/
  ends : machine.controls.cancelled = false → ∀ needed limit, machine.EndsAt needed →
    needed ≤ limit →
      ∃ last, Leaves last (machine.runThenStep limit machine.controls.pending.toNat)
          machine.controls.pending ∧
        ∃ enough, ∀ count ≥ enough, (entering machine).runWatched count =
          ⟨last, .ended (machine.runThenStep limit machine.controls.pending.toNat).result⟩
  /-- No access takes a request while the machine runs, unless the surroundings let it
  run after the last. -/
  keeps : ∀ schedule lately, (∀ action ∈ lately, ¬ Resumes action) →
    (during machine schedule lately).machine.controls.running = true →
      (during machine schedule lately).advance.machine.controls.pending =
        (during machine schedule lately).machine.controls.pending
  /-- A machine whose end was asked for before is left as it was, but for the flags, and
  no cycle is executed until the request is withdrawn. -/
  stale : machine.controls.cancelled = true →
    (∃ enough, ∀ count ≥ enough,
      (entering machine).runWatched count = ⟨machine.released, .ended (.ok ())⟩) ∧
        ∀ schedule : List (List ControlAction), .withdrawCancel ∉ schedule.flatten →
          (entering machine).outcomes schedule = []
  /-- Whatever the surroundings have done, both flags are clear at the end, unless they
  set one after the loop has begun to clear them. -/
  clears : ∀ schedule lately, (during machine schedule lately).Uncleared →
    ∀ later : List (List ControlAction), (∀ action ∈ later.flatten, ¬ Resumes action) →
      .cancel ∉ later.flatten →
        ∀ result, ((during machine schedule lately).underSchedule later).result? = some result →
          ((during machine schedule lately).underSchedule later).machine.controls.running = false ∧
            ((during machine schedule lately).underSchedule later).machine.controls.cancelled = false

theorem settles_of_cancelled (asked : machine.controls.cancelled = true) :
    Settles (entering machine) ⟨machine.released, .ended (.ok ())⟩ :=
  .next rfl (.of_next (advance_testCancelled_of_cancelled asked) rfl (.clearRunning _ _))

theorem point_of_result? (ended : loop.result? = some result) : loop.point = .ended result := by
  rcases loop with ⟨machine, point⟩
  cases point with
  | ended other => exact congrArg LoopPoint.ended (Option.some.inj ended)
  | _ => cases ended

/-- For every machine the loop that drives it agrees with batch execution, takes
requests while halted only and leaves with both flags clear. -/
theorem watched_loop_agrees_with_batch (machine : Machine) : AgreesWithBatch machine where
  ends := by
    intro notAsked needed limit endsAt allowed
    rcases exists_settles_of_endsAt notAsked endsAt allowed with ⟨after, settles, leaves⟩
    exact exists_runWatched leaves settles
  keeps := by
    intro schedule lately noResume running
    apply pending_advance
    intro taken
    have atRequest := (access_eq_readRequests_iff.mp taken).1
    have halted := halted_during schedule noResume atRequest
    rw [running] at halted
    cases halted
  stale := by
    intro asked
    constructor
    · rcases (settles_of_cancelled asked).exists_settle with ⟨enough, found⟩
      refine ⟨enough, fun count atLeast => ?_⟩
      rw [runWatched, found count atLeast]
      rfl
    · intro schedule standing
      have ending : (entering machine).Ending := .inl asked
      exact List.eq_nil_of_length_eq_zero (Nat.le_zero.mp (ending.closes_underSchedule standing).1)
  clears := by
    intro schedule lately uncleared later noResume noCancel result ended
    have cleared := uncleared.cleared.underSchedule noResume noCancel
    exact cleared.ended result (point_of_result? ended)

/-- The machine that halts at address 2, with two requests pending and no request to
end. -/
def servesTwo : Machine :=
  { haltsAtTwo with
    controls := { Controls.initial 700 with pending := 2 } }

/-- The loop halts at its second cycle and serves both requests.  With the request to
end left over it executes nothing. -/
theorem watched_loop_agrees_with_batch_servesTwo :
    (∃ last enough, Leaves last (servesTwo.runThenStep 10 2) 2 ∧
      last.cycles = 4 ∧ last.controls.pending = 0 ∧
      ∀ count ≥ enough, (entering servesTwo).runWatched count = ⟨last, .ended (.ok ())⟩) ∧
      (entering haltsAtTwo).outcomes [[], [.requestStep], [], []] = [] := by
  have ends := (watched_loop_agrees_with_batch servesTwo).ends rfl 2 10
    ⟨1, rfl, by unfold RunsFreely; decide +kernel, by decide +kernel⟩ (by decide)
  have stale := (watched_loop_agrees_with_batch haltsAtTwo).stale rfl
  have served : (servesTwo.runThenStep 10 2).machine.cycles = 4 ∧
      (servesTwo.runThenStep 10 2).attempted = 2 := by decide +kernel
  rcases ends with ⟨last, leaves, enough, found⟩
  refine ⟨⟨last, enough, leaves, ?_, ?_, found⟩, stale.2 _ (by decide)⟩
  · exact leaves.same.cycles_eq.trans served.1
  · have taken : last.controls.pending.toNat + (servesTwo.runThenStep 10 2).attempted = 2 :=
      leaves.taken
    rw [served.2] at taken
    exact UInt32.toNat_inj.mp (Nat.add_right_cancel taken)

end ControlLoop
end SmallScale
