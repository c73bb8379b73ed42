import SmallScale.Proofs.Machine.ControlLoop.Serving
import SmallScale.Proofs.Panel.Channel

namespace SmallScale
namespace Panel

/-!
# Sessions at the front panel

While neither the run key nor the key to quit is pressed, what the loop will have done in
the end is known at every moment of a session, and a loop that is left alone for long enough
gets there.  What it has done then is shown once the panel has made room in the channel and
has taken out what came in.
-/

open Machine ControlLoop

/-- The number of presses of the key for a single step. -/
def stepKeys (events : List PanelEvent) : Nat :=
  events.count (.press .step)

theorem stepKeys_cons (event : PanelEvent) (events : List PanelEvent) :
    stepKeys (event :: events) = stepKeys [event] + stepKeys events := by
  rw [stepKeys, ← List.singleton_append, List.count_append]
  rfl

/-- The keys that neither run nor quit. -/
inductive Harmless : PanelKey → Prop where
  | style : Harmless .style
  | up : Harmless .up
  | down {visibleRows : Nat} : Harmless (.down visibleRows)
  | faster : Harmless .faster
  | slower : Harmless .slower
  | step : Harmless .step

/-- The keys neither run nor quit, the requests can be counted, and the last snapshot of the
thread finds room. -/
structure Allowed (panel : Panel) (event : PanelEvent) : Prop where
  harmless : ∀ key, event = .press key → Harmless key
  countable : event = .press .step → panel.machine.controls.pending.toNat + 1 < 2 ^ 32
  fits : Fits panel event

def isAccess : PanelEvent → Bool
  | .access _ => true
  | _ => false

/-- No key is pressed while the thread makes so many accesses at least. -/
structure Quiet (count : Nat) (events : List PanelEvent) : Prop where
  untouched : ∀ event ∈ events, ∀ key, event ≠ .press key
  accesses : count ≤ events.countP isAccess

/-- The message of a failure. -/
def failureMessage : Except MachineError Unit → Option String
  | .ok _ => none
  | .error e => some e.message

/-- The panel shows what the batch has come to. -/
structure Shows (panel : Panel) (batch : Stepping) : Prop extends
    Depicts panel.shown batch.machine where
  fault : panel.fault = failureMessage batch.result

/-- The loop will have done what the target does. -/
def Heads (panel : Panel) (target : Stepping) : Prop :=
  ∃ batch left, Serving panel.loop batch left ∧ batch.later left = target

/-- The loop has done what the target does and the newest snapshot tells of it. -/
structure Told (panel : Panel) (target : Stepping) : Prop where
  served : Served panel.loop target
  newest : Depicts panel.newest target.machine
  finished : ∀ e, target.result = .error e → panel.finished = true

variable {machine : Machine} {panel : Panel} {target : Stepping} {event : PanelEvent}
  {events : List PanelEvent}

theorem loop_receive (panel : Panel) : panel.receive.loop = panel.loop := by
  rcases panel.exists_receive with ⟨shown, channel, received, _⟩
  rw [received]

theorem loop_collect (panel : Panel) : panel.collect.loop = panel.loop := by
  rcases panel.exists_collect with ⟨fault, collected, seen⟩
  rw [seen]

/-- Of the harmless keys only the one for a single step adds to what will be done. -/
theorem Heads.press {key : PanelKey} (heads : Heads panel target)
    (allowed : Allowed panel (.press key)) :
    Heads (panel.press key) (target.later (stepKeys [.press key])) := by
  rcases heads with ⟨batch, left, serving, rfl⟩
  have speedSet (wish : Nat) : Serving (panel.loop.interfere (.setSpeed wish)) batch left :=
    serving.interfere (.inl ⟨wish, rfl⟩)
  cases allowed.harmless key rfl with
  | style | up | down => exact ⟨batch, left, serving, rfl⟩
  | faster | slower => exact ⟨batch, left, speedSet _, rfl⟩
  | step =>
      have halted := serving.interfere (.inr rfl)
      exact ⟨batch, left + 1, halted.requestStep (allowed.countable rfl), batch.later_succ left⟩

theorem Heads.handle (heads : Heads panel target) (allowed : Allowed panel event) :
    Heads (panel.handle event) (target.later (stepKeys [event])) := by
  cases event with
  | access due =>
      rcases heads with ⟨batch, left, serving, sameEnd⟩
      rcases panel.loop_access due with same | moved
      · exact ⟨batch, left, same.symm ▸ serving, sameEnd⟩
      · rcases serving.approaches with ⟨nextBatch, nextLeft, approaches⟩
        exact ⟨nextBatch, nextLeft, moved.symm ▸ approaches.serving,
          approaches.later_eq.trans sameEnd⟩
  | receive =>
      rcases heads with ⟨batch, left, serving, sameEnd⟩
      exact ⟨batch, left, panel.loop_receive.symm ▸ serving, sameEnd⟩
  | collect =>
      rcases heads with ⟨batch, left, serving, sameEnd⟩
      exact ⟨batch, left, panel.loop_collect.symm ▸ serving, sameEnd⟩
  | press key => exact heads.press allowed

/-- Whatever happens, each request adds one step to what will be done. -/
theorem Heads.foldl_handle (heads : Heads panel target) (allowed : Along Allowed panel events) :
    Heads (events.foldl Panel.handle panel) (target.later (stepKeys events)) := by
  induction events generalizing panel target with
  | nil => exact heads
  | cons event events ih =>
      rw [stepKeys_cons, Stepping.later_add]
      exact ih (heads.handle allowed.1) allowed.2

/-! ## A loop that is left alone -/

/-- Between two accesses to its controls the loop sends at most one snapshot. -/
theorem exists_undisturbed (panel : Panel)
    (untouched : ∀ event ∈ events, ∀ key, event ≠ .press key) :
    ∃ count, (events.foldl handle panel).loop = panel.loop.undisturbed count ∧
      events.countP isAccess ≤ 2 * count + panel.sending.toNat := by
  induction events generalizing panel with
  | nil => exact ⟨0, rfl, Nat.zero_le _⟩
  | cons event events ih =>
      rw [List.forall_mem_cons] at untouched
      rcases ih (panel.handle event) untouched.2 with ⟨count, found, made⟩
      rw [List.foldl_cons, found, List.countP_cons]
      cases event with
      | access due =>
          change _ ≤ 2 * count + (panel.access due).sending.toNat at made
          change ∃ total, (panel.access due).loop.undisturbed count = _ ∧ _
          cases sending : panel.sending with
          | true =>
              rw [access_of_sending sending] at made ⊢
              refine ⟨count, rfl, ?_⟩
              simp [send, isAccess] at made ⊢
              omega
          | false =>
              rw [access_of_not_sending sending] at made ⊢
              have atMostOne := Bool.toNat_le
                (sendsBetween due panel.loop.point panel.loop.advance.point)
              refine ⟨count + 1, rfl, ?_⟩
              simp [isAccess] at made ⊢
              omega
      | receive =>
          rcases panel.exists_receive with ⟨shown, channel, received, _⟩
          change _ ≤ 2 * count + panel.receive.sending.toNat at made
          refine ⟨count, congrArg (undisturbed · count) panel.loop_receive, ?_⟩
          rw [received] at made
          exact made
      | collect =>
          rcases panel.exists_collect with ⟨fault, collected, seen⟩
          change _ ≤ 2 * count + panel.collect.sending.toNat at made
          refine ⟨count, congrArg (undisturbed · count) panel.loop_collect, ?_⟩
          rw [seen] at made
          exact made
      | press key => exact (untouched.1 key rfl).elim

/-- Left alone for long enough, the loop does all that was asked for. -/
theorem Heads.served (heads : Heads panel target)
    (quiet : Quiet (8 * panel.machine.controls.pending.toNat + 8) events) :
    Served (events.foldl Panel.handle panel).loop target := by
  rcases heads with ⟨batch, left, serving, rfl⟩
  rcases exists_undisturbed panel quiet.untouched with ⟨count, found, made⟩
  have enough : accessesNeeded left panel.loop.point ≤ count := by
    have needed : _ ≤ 4 * panel.machine.controls.pending.toNat + 4 := serving.accessesNeeded_le
    have accesses := quiet.accesses
    have atMostOne := panel.sending.toNat_le
    omega
  rw [found]
  exact serving.served_undisturbed enough

theorem Told.access (told : Told panel target) (due : Bool) : Told (panel.access due) target := by
  cases finished : panel.finished with
  | true => rwa [access_of_finished finished]
  | false =>
      have good (e : MachineError) : target.result ≠ .error e := by
        intro failed
        cases finished.symm.trans (told.finished e failed)
      cases sending : panel.sending with
      | true =>
          rw [access_of_sending sending]
          refine ⟨told.served, ?_, fun e failed => (good e failed).elim⟩
          rcases panel.newest_send with same | now
          · rw [same]
            exact told.newest
          · rw [now]
            exact depicts_snapshot told.served.same
      | false =>
          rw [access_of_not_sending sending]
          exact ⟨told.served.advance, told.newest, fun e failed => (good e failed).elim⟩

theorem Told.handle (told : Told panel target) (untouched : ∀ key, event ≠ .press key) :
    Told (panel.handle event) target := by
  cases event with
  | access due => exact told.access due
  | receive =>
      have newest : Depicts panel.receive.newest target.machine := by
        rw [newest_receive]
        exact told.newest
      change Told panel.receive target
      rcases panel.exists_receive with ⟨shown, channel, received, _⟩
      rw [received] at newest ⊢
      exact ⟨told.served, newest, told.finished⟩
  | collect =>
      change Told panel.collect target
      rcases panel.exists_collect with ⟨fault, collected, seen⟩
      rw [seen]
      exact ⟨told.served, told.newest, told.finished⟩
  | press key => exact (untouched key rfl).elim

theorem Told.foldl_handle (told : Told panel target)
    (untouched : ∀ event ∈ events, ∀ key, event ≠ .press key) :
    Told (events.foldl Panel.handle panel) target :=
  foldl_handle_keeps (Told · target)
    (fun event member _ told => told.handle (untouched event member)) told

/-- A panel that was told of the end and has taken everything out of the channel shows the
end, once it sees whether the thread is finished. -/
theorem Told.shows (told : Told panel target) (reports : Reports panel)
    (empty : panel.channel = []) : Shows panel.collect target := by
  have sameShown : panel.collect.shown = panel.newest := by
    rcases panel.exists_collect with ⟨fault, collected, seen⟩
    rw [seen, newest_of_empty empty]
  refine ⟨sameShown ▸ told.newest, ?_⟩
  rw [reports.fault_collect]
  rcases panel with ⟨loop, _, _, _, _, _, _, _, _, _⟩
  have finished := told.finished
  cases told.served with
  | between here same good awaits =>
      rw [good]
      cases here <;> rfl
  | failed same failed =>
      rw [finished _ failed, failed]
      rfl

end Panel
end SmallScale
