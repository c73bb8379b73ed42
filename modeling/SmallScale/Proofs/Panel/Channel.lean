import SmallScale.Panel
import SmallScale.Proofs.Machine.ControlLoop.Batch

namespace SmallScale
namespace Panel

/-!
# What reaches the screen

The panel knows of its machine only what came through the channel.  What counts is the last
snapshot that found room there: taking snapshots out does not change it, and once the
channel is empty it is the one that is shown.  A snapshot that is lost is followed by others
as long as the thread goes on.  Only the one that is sent when the loop has ended is the
last; where it finds room, the newest snapshot of a finished thread tells the final state.
-/

open Machine ControlLoop

/-- The last snapshot that found room in the channel. -/
def newest (panel : Panel) : Snapshot :=
  panel.channel.getLast?.getD panel.shown

/-- The snapshot tells what the machine has computed. -/
structure Depicts (snapshot : Snapshot) (machine : Machine) : Prop where
  cycles : snapshot.cycles = machine.cycles
  registers : snapshot.registers = machine.registers
  store : snapshot.store = machine.store
  last : snapshot.last = machine.last

/-- This holds of all events, each at the panel that it finds. -/
def Along (allowed : Panel → PanelEvent → Prop) (panel : Panel) : List PanelEvent → Prop
  | [] => True
  | event :: events => allowed panel event ∧ Along allowed (panel.handle event) events

/-- If this is the snapshot that is sent when the loop has ended, it finds room. -/
def Fits (panel : Panel) (event : PanelEvent) : Prop :=
  ∀ due, event = .access due → panel.sending = true → panel.loop.result?.isSome = true →
    panel.channel.length < channelRoom

variable {panel : Panel} {event : PanelEvent} {events : List PanelEvent}

/-! ## Runs of events -/

theorem Along.imp {allowed weaker : Panel → PanelEvent → Prop}
    (along : Along allowed panel events)
    (weakens : ∀ panel event, allowed panel event → weaker panel event) :
    Along weaker panel events := by
  induction events generalizing panel with
  | nil => trivial
  | cons event events ih => exact ⟨weakens panel event along.1, ih along.2⟩

/-- What every event keeps is kept by all of them. -/
theorem Along.keeps {allowed : Panel → PanelEvent → Prop} (along : Along allowed panel events)
    (kept : Panel → Prop)
    (keptByHandle : ∀ panel event, allowed panel event → kept panel → kept (panel.handle event))
    (start : kept panel) : kept (events.foldl handle panel) := by
  induction events generalizing panel with
  | nil => exact start
  | cons event events ih => exact ih along.2 (keptByHandle panel event along.1 start)

theorem foldl_handle_keeps (kept : Panel → Prop)
    (keptByHandle : ∀ event ∈ events, ∀ panel, kept panel → kept (panel.handle event))
    (start : kept panel) : kept (events.foldl handle panel) := by
  induction events generalizing panel with
  | nil => exact start
  | cons event events ih =>
      rw [List.forall_mem_cons] at keptByHandle
      exact ih keptByHandle.2 (keptByHandle.1 panel start)

/-! ## Single events -/

theorem access_of_sending (sending : panel.sending = true) (due : Bool) :
    panel.access due = panel.send :=
  if_pos sending

theorem access_of_not_sending (idle : panel.sending = false) (due : Bool) :
    panel.access due =
      { panel with
        loop := panel.loop.advance
        sending := sendsBetween due panel.loop.point panel.loop.advance.point } :=
  if_neg (by simp [idle])

/-- A thread that is finished makes no more accesses. -/
theorem access_of_finished (finished : panel.finished = true) (due : Bool) :
    panel.access due = panel := by
  rcases panel with ⟨⟨machine, point⟩, sending, _, _, _, _, _, _, _, _⟩
  cases sending with
  | true => simp [Panel.finished] at finished
  | false =>
      cases point with
      | ended result => rfl
      | _ => cases finished

/-- An access changes the loop or the channel. -/
theorem exists_access (panel : Panel) (due : Bool) :
    ∃ loop sending channel, panel.access due = { panel with loop, sending, channel } := by
  unfold access
  split
  · exact ⟨_, _, _, rfl⟩
  · exact ⟨_, _, _, rfl⟩

theorem loop_access (panel : Panel) (due : Bool) :
    (panel.access due).loop = panel.loop ∨ (panel.access due).loop = panel.loop.advance := by
  unfold access
  split
  · exact .inl rfl
  · exact .inr rfl

/-- Taking out a snapshot changes what is shown and what is left in the channel. -/
theorem exists_receive (panel : Panel) :
    ∃ shown channel, panel.receive = { panel with shown, channel } ∧
      channel.getLast?.getD shown = panel.newest := by
  unfold receive
  split
  · rename_i empty
    refine ⟨panel.shown, [], ?_, ?_⟩
    · rw [← empty]
    · rw [newest, empty]
  · rename_i oldest rest notEmpty
    refine ⟨oldest, rest, rfl, ?_⟩
    rw [newest, notEmpty, List.getLast?_cons]
    rfl

theorem receive_of_empty (empty : panel.channel = []) : panel.receive = panel := by
  simp [receive, empty]

theorem exists_collect (panel : Panel) :
    ∃ fault collected, panel.collect = { panel with fault, collected } := by
  unfold collect
  split
  · exact ⟨_, _, rfl⟩
  · exact ⟨_, _, rfl⟩

theorem collect_of_not_finished (busy : panel.finished = false) : panel.collect = panel :=
  if_neg (by simp [busy])

/-- A key acts on the controls and on how the store is shown.  None withdraws a request to
end. -/
theorem exists_press (panel : Panel) (key : PanelKey) :
    ∃ (actions : List ControlAction) (style : GlyphStyle) (scroll : Nat) (quit : Bool),
      .withdrawCancel ∉ actions ∧ panel.press key =
        { panel with loop := actions.foldl interfere panel.loop, style, scroll, quit } := by
  cases key with
  | faster | slower | toggle => exact ⟨[_], _, _, _, by simp, rfl⟩
  | step => exact ⟨[.setRunning false, .requestStep], _, _, _, by simp, rfl⟩
  | _ => exact ⟨[], _, _, _, List.not_mem_nil, rfl⟩

/-! ## The newest snapshot -/

theorem depicts_snapshot {machine other : Machine} (same : SameComputation machine other) :
    Depicts machine.snapshot other :=
  ⟨same.cycles_eq, same.registers_eq, same.store_eq, same.last_eq⟩

theorem Depicts.of_same {snapshot : Snapshot} {machine other : Machine}
    (depicts : Depicts snapshot machine) (same : SameComputation machine other) :
    Depicts snapshot other where
  cycles := depicts.cycles.trans same.cycles_eq
  registers := depicts.registers.trans same.registers_eq
  store := depicts.store.trans same.store_eq
  last := depicts.last.trans same.last_eq

theorem newest_of_empty (empty : panel.channel = []) : panel.newest = panel.shown := by
  rw [newest, empty]
  rfl

theorem newest_send_of_room (room : panel.channel.length < channelRoom) :
    panel.send.newest = panel.machine.snapshot := by
  simp [newest, send, room]

theorem newest_send (panel : Panel) :
    panel.send.newest = panel.newest ∨ panel.send.newest = panel.machine.snapshot := by
  by_cases room : panel.channel.length < channelRoom
  · exact .inr (newest_send_of_room room)
  · refine .inl ?_
    simp [newest, send, room]

theorem newest_receive (panel : Panel) : panel.receive.newest = panel.newest := by
  rcases panel.exists_receive with ⟨shown, channel, received, same⟩
  rw [received]
  exact same

/-! ## Finished threads -/

/-- A loop that ends with its next access leaves the thread a snapshot to send. -/
theorem sendsBetween_of_ended {loop : ControlLoop} (going : loop.result? = none)
    (ended : loop.advance.result?.isSome = true) (due : Bool) :
    sendsBetween due loop.point loop.advance.point = true := by
  rcases loop with ⟨machine, point⟩
  cases point with
  | clearCancelled result => rfl
  | ended result => cases going
  | cycle single =>
      unfold result? at ended
      rcases point_afterCycle machine single with ⟨e, next⟩ | next | next <;>
        simp only [advance, next] at ended <;> cases ended
  | testCancelled | retestCancelled =>
      cases asked : machine.controls.cancelled <;>
        simp [advance, result?, asked] at ended
  | testRunning | testStopped =>
      cases running : machine.controls.running <;>
        simp [advance, result?, running] at ended
  | takeRequest =>
      cases taken : machine.controls.takeStep? <;>
        simp [advance, result?, taken] at ended
  | _ => cases ended

/-- The newest snapshot of a finished thread tells the final state. -/
def Delivered (panel : Panel) : Prop :=
  panel.finished = true → Depicts panel.newest panel.machine

theorem result_of_finished (finished : panel.finished = true) :
    panel.loop.result?.isSome = true ∧ panel.sending = false := by
  simpa [Panel.finished] using finished

theorem result_of_not_finished (busy : panel.finished = false) (idle : panel.sending = false) :
    panel.loop.result? = none := by
  simpa [Panel.finished, idle] using busy

theorem same_press (panel : Panel) (key : PanelKey) :
    SameComputation (panel.press key).machine panel.machine := by
  rcases panel.exists_press key with ⟨actions, style, scroll, quit, _, pressed⟩
  rw [pressed]
  exact interfere_keeps (fun machine => SameComputation machine panel.machine)
    (fun action _ machine same => (SameComputation.act machine action).trans same) (.refl _)

theorem finished_press (panel : Panel) (key : PanelKey) :
    (panel.press key).finished = panel.finished := by
  rcases panel.exists_press key with ⟨actions, style, scroll, quit, _, pressed⟩
  rw [pressed]
  unfold finished result?
  rw [point_interfere]

theorem newest_press (panel : Panel) (key : PanelKey) :
    (panel.press key).newest = panel.newest := by
  rcases panel.exists_press key with ⟨actions, style, scroll, quit, _, pressed⟩
  rw [pressed]
  rfl

/-- The last snapshot of a thread is the only one that must not be lost. -/
theorem Delivered.handle (delivered : Delivered panel) (fits : Fits panel event) :
    Delivered (panel.handle event) := by
  cases event with
  | access due =>
      change Delivered (panel.access due)
      cases finished : panel.finished with
      | true => rwa [access_of_finished finished]
      | false =>
          cases sending : panel.sending with
          | true =>
              rw [access_of_sending sending]
              intro finishedNow
              have room := fits due rfl sending (result_of_finished finishedNow).1
              rw [newest_send_of_room room]
              exact depicts_snapshot (.refl _)
          | false =>
              rw [access_of_not_sending sending]
              intro finishedNow
              rcases result_of_finished finishedNow with ⟨ended, noneLeft⟩
              have going := result_of_not_finished finished sending
              cases noneLeft.symm.trans (sendsBetween_of_ended going ended due)
  | receive =>
      change Delivered panel.receive
      intro finished
      rw [newest_receive]
      rcases panel.exists_receive with ⟨shown, channel, received, _⟩
      rw [received] at finished ⊢
      exact delivered finished
  | collect =>
      change Delivered panel.collect
      rcases panel.exists_collect with ⟨fault, collected, seen⟩
      rw [seen]
      exact delivered
  | press key =>
      change Delivered (panel.press key)
      intro finished
      rw [finished_press] at finished
      rw [newest_press]
      exact (delivered finished).of_same (panel.same_press key).symm

/-- The panel shows the failure of a thread that it has seen finished, and no other. -/
structure Reports (panel : Panel) : Prop where
  finished : panel.collected = true → panel.finished = true
  fault : panel.fault = if panel.collected then faultOf panel.loop else none

theorem Reports.access (reports : Reports panel) (due : Bool) : Reports (panel.access due) := by
  cases finished : panel.finished with
  | true => rwa [access_of_finished finished]
  | false =>
      rcases reports with ⟨whenSeen, fault⟩
      rcases panel.exists_access due with ⟨loop, sending, channel, moved⟩
      cases seen : panel.collected with
      | true => cases finished.symm.trans (whenSeen seen)
      | false =>
          rw [seen] at fault
          rw [moved]
          refine ⟨fun seenNow => ?_, ?_⟩
          · cases seen.symm.trans seenNow
          · change panel.fault = if panel.collected then _ else none
            rw [seen]
            exact fault

theorem Reports.collect (reports : Reports panel) : Reports panel.collect := by
  cases finished : panel.finished with
  | false => rwa [collect_of_not_finished finished]
  | true =>
      cases seen : panel.collected with
      | true =>
          have same : panel.collect = panel := if_neg (by simp [seen])
          rwa [same]
      | false =>
          have now : panel.collect =
              { panel with fault := faultOf panel.loop, collected := true } :=
            if_pos (by simp [seen, finished])
          rw [now]
          exact ⟨fun _ => finished, rfl⟩

theorem Reports.press (reports : Reports panel) (key : PanelKey) : Reports (panel.press key) := by
  have sameFinished := panel.finished_press key
  rcases panel.exists_press key with ⟨actions, style, scroll, quit, _, pressed⟩
  rw [pressed] at sameFinished ⊢
  constructor
  · intro seen
    rw [sameFinished]
    exact reports.finished seen
  · have sameFault : faultOf (actions.foldl interfere panel.loop) = faultOf panel.loop := by
      unfold faultOf result?
      rw [point_interfere]
    rw [sameFault]
    exact reports.fault

theorem Reports.handle (reports : Reports panel) (event : PanelEvent) :
    Reports (panel.handle event) := by
  cases event with
  | access due => exact reports.access due
  | receive =>
      change Reports panel.receive
      rcases panel.exists_receive with ⟨shown, channel, received, _⟩
      rw [received]
      exact ⟨reports.finished, reports.fault⟩
  | collect => exact reports.collect
  | press key => exact reports.press key

/-- A panel that sees whether the thread is finished shows how it has ended. -/
theorem Reports.fault_collect (reports : Reports panel) :
    panel.collect.fault = if panel.finished then faultOf panel.loop else none := by
  rcases reports with ⟨whenSeen, fault⟩
  unfold Panel.collect
  cases finished : panel.finished with
  | false =>
      cases seen : panel.collected with
      | true => cases finished.symm.trans (whenSeen seen)
      | false => simpa [seen] using fault
  | true =>
      cases seen : panel.collected with
      | true => simpa [seen] using fault
      | false => rfl

/-! ## What holds of all that is known -/

/-- This holds of what is shown, of all that is still in the channel and of the machine. -/
structure Throughout (good : Snapshot → Prop) (panel : Panel) : Prop where
  shown : good panel.shown
  channel : ∀ snapshot ∈ panel.channel, good snapshot
  machine : good panel.machine.snapshot

/-- Snapshots tell nothing that did not hold of the machine once. -/
theorem Throughout.handle {good : Snapshot → Prop} (throughout : Throughout good panel)
    (still : good (panel.handle event).machine.snapshot) :
    Throughout good (panel.handle event) := by
  cases event with
  | access due =>
      change Throughout good (panel.access due)
      cases sending : panel.sending with
      | true =>
          rw [access_of_sending sending]
          refine ⟨throughout.shown, ?_, throughout.machine⟩
          intro snapshot member
          unfold send at member
          dsimp only at member
          split at member
          · rcases List.mem_append.mp member with before | now
            · exact throughout.channel snapshot before
            · rw [List.mem_singleton.mp now]
              exact throughout.machine
          · exact throughout.channel snapshot member
      | false =>
          change good (panel.access due).machine.snapshot at still
          rw [access_of_not_sending sending] at still ⊢
          exact ⟨throughout.shown, throughout.channel, still⟩
  | receive =>
      change Throughout good panel.receive
      cases channel : panel.channel with
      | nil => rwa [receive_of_empty channel]
      | cons oldest rest =>
          have members := throughout.channel
          rw [channel, List.forall_mem_cons] at members
          simp only [receive, channel]
          exact ⟨members.1, members.2, throughout.machine⟩
  | collect =>
      change Throughout good panel.collect
      rcases panel.exists_collect with ⟨fault, collected, seen⟩
      rw [seen]
      exact ⟨throughout.shown, throughout.channel, throughout.machine⟩
  | press key =>
      change good (panel.press key).machine.snapshot at still
      change Throughout good (panel.press key)
      rcases panel.exists_press key with ⟨actions, style, scroll, quit, _, pressed⟩
      rw [pressed] at still ⊢
      exact ⟨throughout.shown, throughout.channel, still⟩

/-! ## Waiting -/

theorem exists_events_settle (panel : Panel) (count : Nat) :
    ∃ events : List PanelEvent, (∀ key, .press key ∉ events) ∧
      panel.settle count = events.foldl handle panel := by
  induction count generalizing panel with
  | zero => exact ⟨[], by simp, rfl⟩
  | succ count ih =>
      rw [settle]
      split
      · exact ⟨[.access true, .receive], by simp, rfl⟩
      · rcases ih (panel.access true).receive with ⟨events, untouched, settled⟩
        exact ⟨.access true :: .receive :: events, by simpa using untouched, settled⟩

theorem foldl_receive {snapshots : List Snapshot} (channel : panel.channel = snapshots) :
    (List.replicate snapshots.length .receive).foldl handle panel =
      { panel with shown := panel.newest, channel := [] } := by
  induction snapshots generalizing panel with
  | nil =>
      rcases panel with ⟨_, _, _, _, _, _, _, _, _, _⟩
      cases channel
      rfl
  | cons oldest rest ih =>
      have received : panel.receive = { panel with shown := oldest, channel := rest } := by
        rw [receive, channel]
      have sameNewest := panel.newest_receive
      rw [List.length_cons, List.replicate_succ, List.foldl_cons]
      change (List.replicate rest.length .receive).foldl handle panel.receive = _
      rw [ih (congrArg Panel.channel received), sameNewest, received]

/-- To watch the thread and look at the screen is a session without a key. -/
theorem exists_events_refresh (panel : Panel) (count : Nat) :
    ∃ events : List PanelEvent, (∀ key, .press key ∉ events) ∧
      (panel.settle count).refresh = events.foldl handle panel := by
  rcases panel.exists_events_settle count with ⟨events, untouched, settled⟩
  have pulled := foldl_receive (rfl : (panel.settle count).channel = _)
  refine ⟨events ++ (List.replicate (panel.settle count).channel.length .receive ++ [.collect]),
    by simpa using untouched, ?_⟩
  rw [List.foldl_append, ← settled, List.foldl_append, pulled]
  rfl

end Panel
end SmallScale
