import SmallScale.Proofs.Machine.ControlLoop.Ending
import SmallScale.Proofs.Panel.Session

namespace SmallScale

/-!
# Keys of one kind

The style of the words, the rows scrolled away and the speed asked for are each set by keys
of one kind.  Two panels are compared by such a part of them alone.  Keys of other kinds
and events without a key leave the part alone on either panel, and a key of its kind changes
it on both alike.  So the part is known from the keys of its kind, whatever else is pressed,
however far the loop gets and whichever snapshots are lost.
-/

theorem Store.wordCount_set {store after : Store} {address : Nat} {w : Word}
    (replaced : store.set address w = .ok after) : after.wordCount = store.wordCount := by
  rcases Store.set_eq_ok_iff.mp replaced with ⟨_, _, rfl⟩
  exact List.length_set

namespace Machine

/-- A cycle may replace a word of the store but adds none and takes none away. -/
theorem wordCount_step (machine : Machine) :
    machine.step.1.store.wordCount = machine.store.wordCount := by
  cases result : machine.step with
  | mk after outcome =>
      cases outcome with
      | error e =>
          rw [eq_advanced_of_step_error result]
          rfl
      | ok executed =>
          rcases step_eq_ok_iff.mp result with ⟨w, i, done, _, _, effect, _, rfl⟩
          cases effect with
          | sto replaced => exact Store.wordCount_set replaced
          | _ => rfl

theorem speed_step (machine : Machine) :
    machine.step.1.controls.speed = machine.controls.speed := by
  rcases machine.exists_controls_step with ⟨running, written⟩
  rw [written]
  rfl

end Machine

namespace ControlLoop

/-- A part of the machine that neither a cycle changes nor any control but the speed. -/
structure Untouched {View : Type} (view : Machine → View) : Prop where
  step : ∀ machine, view machine.step.1 = view machine
  withControls : ∀ (machine : Machine) (controls : Controls),
    controls.speed = machine.controls.speed → view (machine.withControls controls) = view machine

theorem untouched_wordCount : Untouched fun machine => machine.store.wordCount :=
  ⟨Machine.wordCount_step, fun _ _ _ => rfl⟩

theorem untouched_speed : Untouched fun machine => machine.controls.speed :=
  ⟨Machine.speed_step, fun _ _ same => same⟩

variable {View : Type} {view : Machine → View}

theorem Untouched.advance (untouched : Untouched view) (loop : ControlLoop) :
    view loop.advance.machine = view loop.machine := by
  rcases loop with ⟨machine, point⟩
  cases point with
  | start => exact untouched.withControls machine _ rfl
  | takeRequest =>
      cases taken : machine.controls.takeStep? with
      | none => rw [advance_takeRequest_of_none taken]
      | some controls =>
          rw [advance_takeRequest taken]
          apply untouched.withControls machine controls
          rw [eq_of_takeStep? taken]
  | cycle single =>
      have stepped : view (afterCycle machine single).machine = view machine := by
        rw [machine_afterCycle]
        exact untouched.step machine
      exact stepped
  | clearRunning result => exact untouched.withControls machine _ rfl
  | clearCancelled result => exact untouched.withControls machine _ rfl
  | _ => rfl

end ControlLoop

namespace Panel

open ControlLoop

/-- The key that is pressed, if any. -/
def key? : PanelEvent → Option PanelKey
  | .press key => some key
  | _ => none

/-- The keys of one kind among those pressed. -/
def keysAmong (kind : PanelKey → Bool) (events : List PanelEvent) : List PanelKey :=
  (events.filterMap key?).filter kind

/-- The keys of this kind alone decide whether panels agree. -/
structure Governs (kind : PanelKey → Bool) (agree : Panel → Panel → Prop) : Prop where
  unattended : ∀ {panel other : Panel}, agree panel other →
    ∀ {event}, key? event = none → agree (panel.handle event) other
  ignored : ∀ {panel other : Panel}, agree panel other →
    ∀ {key}, kind key = false → agree (panel.press key) other
  pressed : ∀ {panel other : Panel}, agree panel other →
    ∀ {key}, kind key = true → agree (panel.press key) (other.press key)

variable {panel other : Panel} {event : PanelEvent} {kind : PanelKey → Bool}
  {agree : Panel → Panel → Prop}

/-- A session agrees with the keys of this kind pressed on a panel where nothing else
happens. -/
theorem Governs.foldl_handle (governs : Governs kind agree) (agrees : agree panel other)
    (events : List PanelEvent) :
    agree (events.foldl handle panel) ((keysAmong kind events).foldl press other) := by
  induction events generalizing panel other with
  | nil => exact agrees
  | cons event events ih =>
      cases event with
      | press key =>
          have pressed : keysAmong kind (.press key :: events) =
              ((key :: events.filterMap key?).filter kind) := rfl
          cases isKind : kind key with
          | false =>
              rw [pressed, List.filter_cons_of_neg (by simp [isKind])]
              exact ih (governs.ignored agrees isKind)
          | true =>
              rw [pressed, List.filter_cons_of_pos isKind]
              exact ih (governs.pressed agrees isKind)
      | _ => exact ih (governs.unattended agrees rfl)

theorem view_handle {View : Type} {view : Machine → View} (untouched : Untouched view)
    (panel : Panel) (unattended : key? event = none) :
    view (panel.handle event).machine = view panel.machine := by
  cases event with
  | access due =>
      rcases panel.loop_access due with same | moved
      · exact congrArg (fun loop => view loop.machine) same
      · exact (congrArg (fun loop => view loop.machine) moved).trans (untouched.advance panel.loop)
  | receive => exact congrArg (fun loop => view loop.machine) panel.loop_receive
  | collect => exact congrArg (fun loop => view loop.machine) panel.loop_collect
  | press key => cases unattended

/-- Without a key nothing changes about how the store is shown. -/
theorem style_scroll_handle (panel : Panel) (unattended : key? event = none) :
    (panel.handle event).style = panel.style ∧ (panel.handle event).scroll = panel.scroll := by
  cases event with
  | access due =>
      change (panel.access due).style = _ ∧ (panel.access due).scroll = _
      rcases panel.exists_access due with ⟨loop, sending, channel, moved⟩
      rw [moved]
      exact ⟨rfl, rfl⟩
  | receive =>
      change panel.receive.style = _ ∧ panel.receive.scroll = _
      rcases panel.exists_receive with ⟨shown, channel, received, _⟩
      rw [received]
      exact ⟨rfl, rfl⟩
  | collect =>
      change panel.collect.style = _ ∧ panel.collect.scroll = _
      rcases panel.exists_collect with ⟨fault, collected, seen⟩
      rw [seen]
      exact ⟨rfl, rfl⟩
  | press key => cases unattended

/-- The stores of the machine and of all its snapshots have so many words. -/
def Sized (wordCount : Nat) : Panel → Prop :=
  Throughout (·.store.wordCount = wordCount)

theorem Sized.handle {wordCount : Nat} (sized : Sized wordCount panel) (event : PanelEvent) :
    Sized wordCount (panel.handle event) := by
  apply Throughout.handle sized
  change (panel.handle event).machine.store.wordCount = wordCount
  have kept : (panel.handle event).machine.store.wordCount = panel.machine.store.wordCount := by
    cases event with
    | press key => exact congrArg Store.wordCount (panel.same_press key).store_eq
    | _ => exact view_handle untouched_wordCount panel rfl
  exact kept.trans sized.machine

/-! ## The style -/

def isSpeedKey : PanelKey → Bool
  | .faster | .slower => true
  | _ => false

theorem governs_speed :
    Governs isSpeedKey fun panel other =>
      panel.machine.controls.speed = other.machine.controls.speed where
  unattended agrees event unattended := (view_handle untouched_speed _ unattended).trans agrees
  ignored agrees key isOther := by
    cases key with
    | faster | slower => cases isOther
    | _ => exact agrees
  pressed agrees key isSpeed := by
    cases key with
    | faster => exact congrArg (fun speed => possibleSpeed (fasterThan speed)) agrees
    | slower => exact congrArg (fun speed => possibleSpeed (slowerThan speed)) agrees
    | _ => cases isSpeed

end Panel
end SmallScale
