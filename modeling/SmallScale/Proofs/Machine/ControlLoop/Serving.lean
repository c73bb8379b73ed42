import SmallScale.Proofs.Machine.ControlLoop.Settling

namespace SmallScale

/-!
# Requests that come while others are served

Halted and not asked to end, the loop serves one request after the other, and more of
them may come at any moment.  What it will have done in the end is known at every moment:
so many single steps behind those that it has done already.  No access changes this, and
each request adds one step.  A step that fails is the last.
-/

namespace Machine

/-- One more single step, unless one has failed. -/
def Stepping.next (batch : Stepping) : Stepping :=
  match batch.result with
  | .error _ => batch
  | .ok () =>
      match batch.machine.step with
      | (after, .error e) => ⟨after, batch.attempted + 1, .error e⟩
      | (after, .ok _) => ⟨after, batch.attempted + 1, .ok ()⟩

/-- Some more single steps, up to the first that fails. -/
def Stepping.later (batch : Stepping) : Nat → Stepping
  | 0 => batch
  | count + 1 => batch.next.later count

namespace Stepping

variable {batch : Stepping} {e : MachineError} {executed : Executed}

theorem next_of_error (failed : batch.result = .error e) : batch.next = batch := by
  rw [next, failed]

theorem later_of_error (failed : batch.result = .error e) (count : Nat) :
    batch.later count = batch := by
  induction count with
  | zero => rfl
  | succ count ih => rw [later, next_of_error failed, ih]

theorem next_of_step_error (good : batch.result = .ok ())
    (failed : batch.machine.step.2 = .error e) :
    batch.next = ⟨batch.machine.step.1, batch.attempted + 1, .error e⟩ := by
  rw [next, good, step_eq_pair failed]

theorem next_of_step_ok (good : batch.result = .ok ())
    (succeeded : batch.machine.step.2 = .ok executed) :
    batch.next = ⟨batch.machine.step.1, batch.attempted + 1, .ok ()⟩ := by
  rw [next, good, step_eq_pair succeeded]

theorem later_succ (batch : Stepping) (count : Nat) :
    batch.later (count + 1) = (batch.later count).next := by
  induction count generalizing batch with
  | zero => rfl
  | succ count ih => exact ih batch.next

theorem later_add (batch : Stepping) (count more : Nat) :
    batch.later (count + more) = (batch.later count).later more := by
  induction more with
  | zero => rfl
  | succ more ih => rw [← Nat.add_assoc, later_succ, ih, later_succ]

end Stepping

end Machine

namespace ControlLoop

open Machine

/-- The points between two requests of a halted machine. -/
inductive Between : LoopPoint → Prop where
  | idle : Between .idle
  | testCancelled : Between .testCancelled
  | testRunning : Between .testRunning
  | takeRequest : Between .takeRequest

/-- The points behind a failure. -/
inductive LeavingWith (e : MachineError) : LoopPoint → Prop where
  | clearRunning : LeavingWith e (.clearRunning (.error e))
  | clearCancelled : LeavingWith e (.clearCancelled (.error e))
  | ended : LeavingWith e (.ended (.error e))

/-- The controls of a halted machine with so many requests pending. -/
structure Awaits (controls : Controls) (requests : Nat) : Prop where
  halted : controls.running = false
  notCancelled : controls.cancelled = false
  pending : controls.pending.toNat = requests

/-- The loop has done what the batch does and has so many requests still to serve. -/
inductive Serving : ControlLoop → Stepping → Nat → Prop where
  | between {machine : Machine} {point : LoopPoint} {batch : Stepping} {left : Nat}
      (here : Between point) (same : SameComputation machine batch.machine)
      (good : batch.result = .ok ()) (awaits : Awaits machine.controls left) :
      Serving ⟨machine, point⟩ batch left
  /-- A request is taken and its step is still to be executed. -/
  | taken {machine : Machine} {batch : Stepping} {left : Nat}
      (same : SameComputation machine batch.machine) (good : batch.result = .ok ())
      (awaits : Awaits machine.controls left) :
      Serving ⟨machine, .cycle true⟩ batch (left + 1)
  | failed {machine : Machine} {point : LoopPoint} {batch : Stepping} {left : Nat}
      {e : MachineError} (here : LeavingWith e point)
      (same : SameComputation machine batch.machine) (failed : batch.result = .error e) :
      Serving ⟨machine, point⟩ batch left

variable {loop : ControlLoop} {batch : Stepping} {left : Nat}

/-- The loop has done just what the target does and has nothing left to serve. -/
inductive Served : ControlLoop → Stepping → Prop where
  | between {machine : Machine} {point : LoopPoint} {target : Stepping} (here : Between point)
      (same : SameComputation machine target.machine) (good : target.result = .ok ())
      (awaits : Awaits machine.controls 0) : Served ⟨machine, point⟩ target
  | failed {machine : Machine} {target : Stepping} {e : MachineError}
      (same : SameComputation machine target.machine) (failed : target.result = .error e) :
      Served ⟨machine, .ended (.error e)⟩ target

/-- How many accesses it takes until the requests are served. -/
def accessesNeeded (left : Nat) : LoopPoint → Nat
  | .idle => 4 * left + 4
  | .testCancelled => 4 * left + 3
  | .testRunning => 4 * left + 2
  | .takeRequest => 4 * left + 1
  | .cycle _ => 4 * left
  | .clearRunning _ => 2
  | _ => 1

/-- An access changes nothing about what will have been done, and it is the last one or
leaves fewer to be made. -/
structure Approaches (loop next : ControlLoop) (batch nextBatch : Stepping)
    (left nextLeft : Nat) : Prop where
  serving : Serving next nextBatch nextLeft
  later_eq : nextBatch.later nextLeft = batch.later left
  nearer : Served next (batch.later left) ∨
    accessesNeeded nextLeft next.point < accessesNeeded left loop.point

/-- The next access serves no request and leads on. -/
theorem Approaches.of_fewer {next : ControlLoop} (serving : Serving next batch left)
    (fewer : accessesNeeded left next.point < accessesNeeded left loop.point) :
    Approaches loop next batch batch left left :=
  ⟨serving, rfl, .inr fewer⟩

/-- The next access serves no request and is the last. -/
theorem Approaches.of_served {next : ControlLoop} (serving : Serving next batch left)
    (served : Served next (batch.later left)) : Approaches loop next batch batch left left :=
  ⟨serving, rfl, .inl served⟩

variable {machine : Machine} {point : LoopPoint} {target : Stepping} {e : MachineError}

theorem exists_approaches_of_between (here : Between point)
    (same : SameComputation machine batch.machine) (good : batch.result = .ok ())
    (awaits : Awaits machine.controls left) :
    ∃ nextBatch nextLeft, Approaches ⟨machine, point⟩ (advance ⟨machine, point⟩) batch nextBatch
      left nextLeft := by
  cases here with
  | idle =>
      have next : Serving ⟨machine, .testCancelled⟩ batch left :=
        .between .testCancelled same good awaits
      exact ⟨batch, left, .of_fewer next (Nat.lt_succ_self _)⟩
  | testCancelled =>
      have next : Serving ⟨machine, .testRunning⟩ batch left :=
        .between .testRunning same good awaits
      rw [advance_testCancelled awaits.notCancelled]
      exact ⟨batch, left, .of_fewer next (Nat.lt_succ_self _)⟩
  | testRunning =>
      have next : Serving ⟨machine, .takeRequest⟩ batch left :=
        .between .takeRequest same good awaits
      rw [advance_testRunning_of_halted awaits.halted]
      exact ⟨batch, left, .of_fewer next (Nat.lt_succ_self _)⟩
  | takeRequest =>
      cases left with
      | zero =>
          have idles : Serving ⟨machine, .idle⟩ batch 0 := .between .idle same good awaits
          rw [advance_takeRequest_of_none (takeStep?_of_toNat_eq_zero awaits.pending)]
          exact ⟨batch, 0, .of_served idles (.between .idle same good awaits)⟩
      | succ left =>
          rcases takeStep?_of_toNat awaits.pending with ⟨controls, found, others, noRun, noEnd⟩
          have stillAwaits : Awaits (machine.withControls controls).controls left :=
            ⟨noRun.trans awaits.halted, noEnd.trans awaits.notCancelled, others⟩
          have next : Serving ⟨machine.withControls controls, .cycle true⟩ batch (left + 1) :=
            .taken ((SameComputation.withControls machine controls).trans same) good stillAwaits
          rw [advance_takeRequest found]
          exact ⟨batch, left + 1, .of_fewer next (Nat.lt_succ_self _)⟩

/-- Behind a request that is taken its step is executed, and one request fewer is left. -/
theorem exists_approaches_of_taken (same : SameComputation machine batch.machine)
    (good : batch.result = .ok ()) (awaits : Awaits machine.controls left) :
    ∃ nextBatch nextLeft, Approaches ⟨machine, .cycle true⟩ (afterCycle machine true) batch
      nextBatch (left + 1) nextLeft := by
  -- The batch takes the same step, so its outcome is that of the loop.
  cases outcome : batch.machine.step.2 with
  | error e =>
      have next : Serving ⟨machine.step.1, .clearRunning (.error e)⟩ batch.next left := by
        rw [Stepping.next_of_step_error good outcome]
        exact .failed .clearRunning same.step.1 rfl
      have fewer : 2 < 4 * (left + 1) := by omega
      rw [afterCycle_of_error (same.step.2.trans outcome)]
      exact ⟨batch.next, left, next, rfl, .inr fewer⟩
  | ok executed =>
      have kept : machine.step.1.controls = machine.controls :=
        controls_step_of_halted awaits.halted
      have next : Serving ⟨machine.step.1, .testCancelled⟩ batch.next left := by
        rw [Stepping.next_of_step_ok good outcome]
        exact .between .testCancelled same.step.1 rfl (kept ▸ awaits)
      have fewer : 4 * left + 3 < 4 * (left + 1) := by omega
      rw [afterCycle_of_ok (same.step.2.trans outcome)]
      exact ⟨batch.next, left, next, rfl, .inr fewer⟩

theorem exists_approaches_of_failed (here : LeavingWith e point)
    (same : SameComputation machine batch.machine) (failed : batch.result = .error e) :
    ∃ nextBatch nextLeft, Approaches ⟨machine, point⟩ (advance ⟨machine, point⟩) batch nextBatch
      left nextLeft := by
  have ends {after : Machine} (same : SameComputation after batch.machine) :
      Approaches ⟨machine, point⟩ ⟨after, .ended (.error e)⟩ batch batch left left := by
    apply Approaches.of_served (.failed .ended same failed)
    rw [Stepping.later_of_error failed]
    exact .failed same failed
  cases here with
  | clearRunning =>
      have next :
          Serving ⟨machine.act (.setRunning false), .clearCancelled (.error e)⟩ batch left :=
        .failed .clearCancelled ((SameComputation.act machine _).trans same) failed
      exact ⟨batch, left, .of_fewer next (Nat.lt_succ_self 1)⟩
  | clearCancelled => exact ⟨batch, left, ends ((SameComputation.act machine _).trans same)⟩
  | ended => exact ⟨batch, left, ends same⟩

/-- Each access of a serving loop approaches the end. -/
theorem Serving.approaches (serving : Serving loop batch left) :
    ∃ nextBatch nextLeft, Approaches loop loop.advance batch nextBatch left nextLeft := by
  cases serving with
  | between here same good awaits => exact exists_approaches_of_between here same good awaits
  | taken same good awaits => exact exists_approaches_of_taken same good awaits
  | failed here same failed => exact exists_approaches_of_failed here same failed

theorem Serving.accessesNeeded_pos (serving : Serving loop batch left) :
    0 < accessesNeeded left loop.point := by
  cases serving with
  | between here => cases here <;> exact Nat.succ_pos _
  | taken => exact Nat.succ_pos _
  | failed here => cases here <;> exact Nat.succ_pos _

theorem Serving.accessesNeeded_le (serving : Serving loop batch left) :
    accessesNeeded left loop.point ≤ 4 * loop.machine.controls.pending.toNat + 4 := by
  cases serving with
  | between here same good awaits =>
      rw [awaits.pending]
      cases here <;> simp only [accessesNeeded] <;> omega
  | taken same good awaits =>
      rw [awaits.pending]
      exact Nat.le_refl _
  | failed here => cases here <;> simp only [accessesNeeded] <;> omega

/-! ## When all is served -/

theorem Served.serving (served : Served loop target) : Serving loop target 0 := by
  cases served with
  | between here same good awaits => exact .between here same good awaits
  | failed same failed => exact .failed .ended same failed

theorem Served.same (served : Served loop target) :
    SameComputation loop.machine target.machine := by
  cases served <;> assumption

theorem Served.advance (served : Served loop target) : Served loop.advance target := by
  cases served with
  | between here same good awaits =>
      cases here with
      | idle => exact .between .testCancelled same good awaits
      | testCancelled =>
          rw [advance_testCancelled awaits.notCancelled]
          exact .between .testRunning same good awaits
      | testRunning =>
          rw [advance_testRunning_of_halted awaits.halted]
          exact .between .takeRequest same good awaits
      | takeRequest =>
          rw [advance_takeRequest_of_none (takeStep?_of_toNat_eq_zero awaits.pending)]
          exact .between .idle same good awaits
  | failed same failed => exact .failed same failed

theorem Served.undisturbed (served : Served loop target) (count : Nat) :
    Served (loop.undisturbed count) target := by
  induction count generalizing loop with
  | zero => exact served
  | succ count ih => exact ih served.advance

/-- Left alone for long enough, the loop serves everything. -/
theorem Serving.served_undisturbed (serving : Serving loop batch left) {count : Nat}
    (enough : accessesNeeded left loop.point ≤ count) :
    Served (loop.undisturbed count) (batch.later left) := by
  induction count generalizing loop batch left with
  | zero => exact (Nat.not_lt.mpr enough serving.accessesNeeded_pos).elim
  | succ count ih =>
      rcases serving.approaches with ⟨nextBatch, nextLeft, approaches⟩
      rcases approaches.nearer with served | fewer
      · exact served.undisturbed count
      · rw [← approaches.later_eq]
        exact ih approaches.serving (Nat.le_of_lt_succ (Nat.lt_of_lt_of_le fewer enough))

theorem Settles.exists_undisturbed {rest : ControlLoop} (settles : Settles loop rest) :
    ∃ count, loop.undisturbed count = rest := by
  induction settles with
  | last settled => exact ⟨1, rfl⟩
  | next busy later ih =>
      rcases ih with ⟨count, found⟩
      exact ⟨count + 1, found⟩

/-- Acting on the speed or halting a halted machine once more changes nothing. -/
theorem Serving.interfere {action : ControlAction} (serving : Serving loop batch left)
    (harmless : (∃ wish, action = .setSpeed wish) ∨ action = .setRunning false) :
    Serving (loop.interfere action) batch left := by
  have stillAwaits {controls : Controls} {requests : Nat} (awaits : Awaits controls requests) :
      Awaits (controls.act action) requests := by
    rcases harmless with ⟨wish, rfl⟩ | rfl
    · exact ⟨awaits.halted, awaits.notCancelled, awaits.pending⟩
    · exact ⟨rfl, awaits.notCancelled, awaits.pending⟩
  cases serving with
  | between here same good awaits =>
      exact .between here ((SameComputation.act _ _).trans same) good (stillAwaits awaits)
  | taken same good awaits =>
      exact .taken ((SameComputation.act _ _).trans same) good (stillAwaits awaits)
  | failed here same failed => exact .failed here ((SameComputation.act _ _).trans same) failed

/-- Each request is one more step to serve, as long as they can be counted. -/
theorem Serving.requestStep (serving : Serving loop batch left)
    (countable : loop.machine.controls.pending.toNat + 1 < 2 ^ 32) :
    Serving (loop.interfere .requestStep) batch (left + 1) := by
  have oneMore {controls : Controls} {requests : Nat} (awaits : Awaits controls requests)
      (countable : controls.pending.toNat + 1 < 2 ^ 32) :
      Awaits (controls.act .requestStep) (requests + 1) := by
    refine ⟨awaits.halted, awaits.notCancelled, ?_⟩
    have pending := awaits.pending
    change (controls.pending + 1).toNat = requests + 1
    rw [UInt32.toNat_add, pending]
    exact Nat.mod_eq_of_lt (by simp; omega)
  cases serving with
  | between here same good awaits =>
      exact .between here ((SameComputation.act _ _).trans same) good (oneMore awaits countable)
  | taken same good awaits =>
      exact .taken ((SameComputation.act _ _).trans same) good (oneMore awaits countable)
  | failed here same failed => exact .failed here ((SameComputation.act _ _).trans same) failed

end ControlLoop
end SmallScale
