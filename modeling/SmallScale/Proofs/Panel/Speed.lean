import Mathlib.Logic.Function.Iterate
import SmallScale.Proofs.Panel.View

namespace SmallScale
namespace Panel

/-!
# The speed keys

Both speed keys take steps of one up to a speed of ten, of ten up to a hundred, and of a
hundred above.  The key that speeds up finds its step from the speed before the press, and
the key that slows down from the speed it is to lower.  So a press of the one undoes a press
of the other unless the first has led over a border, as it does from the speeds between
ninety and a hundred: it lands less than ten above the border, and from there the step back
is ten times as long.  Round speeds never come to such a place.

For the same reason the key that slows down takes a speed just above a border to a lower
one than a speed just below it.
-/

open ControlLoop

/-- A speed from which the steps of the key that speeds up meet the borders they come to. -/
def Round (speed : Nat) : Prop :=
  speed ≤ 10 ∨ 10 ∣ speed ∨ 100 ≤ speed

/-- None of so many presses of the key that speeds up reaches the highest speed. -/
def StaysBelow (speed count : Nat) : Prop :=
  ∀ pressed < count, fasterThan^[pressed + 1] speed < maxSpeed

/-- So many presses of the key that speeds up do not lead over the border at a hundred
without meeting it. -/
def Retraceable (speed count : Nat) : Prop :=
  Round speed ∨ fasterThan^[count] speed ≤ 100

/-- The two speeds lie so close to a border between them that the step from the upper one is
longer than the step from the lower one by more than their distance. -/
def StraddlesBorder (slow fast : Nat) : Prop :=
  slow ≤ 10 ∧ 10 < fast ∧ fast < slow + 9 ∨
    slow ≤ 10 ∧ 100 < fast ∧ fast < slow + 99 ∨
      10 < slow ∧ slow ≤ 100 ∧ 100 < fast ∧ fast < slow + 90

variable {speed count slow fast : Nat}

/-! ## One press -/

theorem fasterThan_le (speed : Nat) : fasterThan speed ≤ maxSpeed :=
  Nat.min_le_right _ _

theorem fasterThan_pos (pos : 1 ≤ speed) : 1 ≤ fasterThan speed := by
  unfold fasterThan maxSpeed
  dsimp only
  split_ifs <;> omega

/-- What a press does that stays below the highest speed. -/
theorem fasterThan_cases (below : fasterThan speed < maxSpeed) :
    speed < 10 ∧ fasterThan speed = speed + 1 ∨
      10 ≤ speed ∧ speed < 100 ∧ fasterThan speed = speed + 10 ∨
        100 ≤ speed ∧ fasterThan speed = speed + 100 := by
  unfold fasterThan maxSpeed at *
  dsimp only at *
  split_ifs at * <;> omega

theorem slowerThan_cases (speed : Nat) :
    speed ≤ 10 ∧ slowerThan speed = max (speed - 1) 1 ∨
      10 < speed ∧ speed ≤ 100 ∧ slowerThan speed = speed - 10 ∨
        100 < speed ∧ slowerThan speed = speed - 100 := by
  unfold slowerThan
  split_ifs <;> omega

theorem slowerThan_pos (speed : Nat) : 1 ≤ slowerThan speed := by
  have cases := slowerThan_cases speed
  omega

theorem slowerThan_le (pos : 1 ≤ speed) : slowerThan speed ≤ speed := by
  have cases := slowerThan_cases speed
  omega

/-- A press from at most ninety or from at least a hundred is undone. -/
theorem slowerThan_fasterThan (pos : 1 ≤ speed) (below : fasterThan speed < maxSpeed)
    (apart : speed ≤ 90 ∨ 100 ≤ speed) : slowerThan (fasterThan speed) = speed := by
  have back := slowerThan_cases (fasterThan speed)
  rcases fasterThan_cases below with ⟨low, stepped⟩ | ⟨_, low, stepped⟩ | ⟨high, stepped⟩ <;>
    omega

/-- Slowing down reverses the order of two speeds near a border and of no others. -/
theorem slowerThan_lt_slowerThan_iff (pos : 1 ≤ slow) (le : slow ≤ fast) :
    slowerThan fast < slowerThan slow ↔ StraddlesBorder slow fast := by
  unfold StraddlesBorder
  rcases slowerThan_cases slow with ⟨low, lowered⟩ | ⟨_, low, lowered⟩ | ⟨high, lowered⟩ <;>
    rcases slowerThan_cases fast with ⟨_, other⟩ | ⟨_, _, other⟩ | ⟨_, other⟩ <;>
    omega

/-! ## Round speeds -/

theorem Round.apart (round : Round speed) : speed ≤ 90 ∨ 100 ≤ speed := by
  unfold Round at round
  omega

theorem round_fasterThan (round : Round speed) (below : fasterThan speed < maxSpeed) :
    Round (fasterThan speed) := by
  have stepped := fasterThan_cases below
  unfold Round at *
  omega

/-- From a speed that is not round no round one is met before the border at a hundred. -/
theorem not_round_fasterThan (uneven : ¬ Round speed) (low : fasterThan speed ≤ 100) :
    ¬ Round (fasterThan speed) := by
  have stepped := fasterThan_cases (Nat.lt_of_le_of_lt low (by decide : 100 < maxSpeed))
  unfold Round at *
  omega

/-! ## Many presses -/

theorem iterate_fasterThan_pos (pos : 1 ≤ speed) (count : Nat) : 1 ≤ fasterThan^[count] speed := by
  induction count with
  | zero => exact pos
  | succ count ih =>
      rw [Function.iterate_succ_apply']
      exact fasterThan_pos ih

theorem iterate_fasterThan_le (le : speed ≤ maxSpeed) (count : Nat) :
    fasterThan^[count] speed ≤ maxSpeed := by
  cases count with
  | zero => exact le
  | succ count =>
      rw [Function.iterate_succ_apply']
      exact fasterThan_le _

theorem iterate_slowerThan_pos (pos : 1 ≤ speed) (count : Nat) : 1 ≤ slowerThan^[count] speed := by
  cases count with
  | zero => exact pos
  | succ count =>
      rw [Function.iterate_succ_apply']
      exact slowerThan_pos _

theorem iterate_slowerThan_le (pos : 1 ≤ speed) (count : Nat) :
    slowerThan^[count] speed ≤ speed := by
  induction count with
  | zero => exact Nat.le_refl speed
  | succ count ih =>
      rw [Function.iterate_succ_apply']
      exact Nat.le_trans (slowerThan_le (iterate_slowerThan_pos pos count)) ih

/-- Of presses that stay below the highest speed the last one and those before it do. -/
theorem StaysBelow.of_succ (below : StaysBelow speed (count + 1)) :
    StaysBelow speed count ∧ fasterThan (fasterThan^[count] speed) < maxSpeed := by
  constructor
  · intro pressed fewer
    exact below pressed (Nat.lt_succ_of_lt fewer)
  · have last := below count (Nat.lt_succ_self count)
    rwa [Function.iterate_succ_apply'] at last

theorem round_iterate_fasterThan (round : Round speed) (below : StaysBelow speed count) :
    Round (fasterThan^[count] speed) := by
  induction count with
  | zero => exact round
  | succ count ih =>
      rcases below.of_succ with ⟨belowSoFar, belowStill⟩
      rw [Function.iterate_succ_apply']
      exact round_fasterThan (ih belowSoFar) belowStill

theorem not_round_iterate_fasterThan (uneven : ¬ Round speed)
    (low : fasterThan^[count] speed ≤ 100) : ¬ Round (fasterThan^[count] speed) := by
  induction count with
  | zero => exact uneven
  | succ count ih =>
      rw [Function.iterate_succ_apply'] at low ⊢
      have stepped := fasterThan_cases (Nat.lt_of_le_of_lt low (by decide : 100 < maxSpeed))
      exact not_round_fasterThan (ih (by omega)) low

/-- If the last press is undone by the first one of the other key, the others are left. -/
theorem iterate_slowerThan_succ
    (undone : slowerThan (fasterThan (fasterThan^[count] speed)) = fasterThan^[count] speed) :
    slowerThan^[count + 1] (fasterThan^[count + 1] speed) =
      slowerThan^[count] (fasterThan^[count] speed) := by
  rw [Function.iterate_succ_apply, Function.iterate_succ_apply', undone]

theorem iterate_slowerThan_of_retraceable (pos : 1 ≤ speed) (below : StaysBelow speed count)
    (retraceable : Retraceable speed count) :
    slowerThan^[count] (fasterThan^[count] speed) = speed := by
  induction count with
  | zero => rfl
  | succ count ih =>
      rcases below.of_succ with ⟨belowSoFar, belowStill⟩
      have stepped := fasterThan_cases belowStill
      unfold Retraceable at retraceable
      rw [Function.iterate_succ_apply'] at retraceable
      have retraceableSoFar : Retraceable speed count :=
        retraceable.imp_right fun low => by omega
      have apart : fasterThan^[count] speed ≤ 90 ∨ 100 ≤ fasterThan^[count] speed := by
        rcases retraceable with round | low
        · exact (round_iterate_fasterThan round belowSoFar).apart
        · omega
      have lastUndone := slowerThan_fasterThan (iterate_fasterThan_pos pos count) belowStill apart
      rw [iterate_slowerThan_succ lastUndone]
      exact ih belowSoFar retraceableSoFar

/-- Once the border at a hundred was missed on the way up, the way down leads below ten. -/
theorem iterate_slowerThan_lt_ten (uneven : ¬ Round speed) (below : StaysBelow speed count)
    (high : 100 < fasterThan^[count] speed) :
    slowerThan^[count] (fasterThan^[count] speed) < 10 := by
  have middle : 10 < speed ∧ speed < 100 := by
    unfold Round at uneven
    omega
  induction count with
  | zero =>
      rw [Function.iterate_zero_apply] at high
      omega
  | succ count ih =>
      rcases below.of_succ with ⟨belowSoFar, belowStill⟩
      rw [Function.iterate_succ_apply'] at high
      by_cases highSoFar : 100 < fasterThan^[count] speed
      · have pos := iterate_fasterThan_pos (Nat.one_le_of_lt middle.1) count
        have lastUndone := slowerThan_fasterThan pos belowStill (Or.inr (Nat.le_of_lt highSoFar))
        rw [iterate_slowerThan_succ lastUndone]
        exact ih belowSoFar highSoFar
      · -- The last press leads over the border, and the first one back below ten.
        have unevenSoFar := not_round_iterate_fasterThan uneven (Nat.le_of_not_lt highSoFar)
        unfold Round at unevenSoFar
        have stepped := fasterThan_cases belowStill
        have lowered := slowerThan_cases (fasterThan (fasterThan^[count] speed))
        have further := iterate_slowerThan_le
          (slowerThan_pos (fasterThan (fasterThan^[count] speed))) count
        rw [Function.iterate_succ_apply, Function.iterate_succ_apply']
        omega

/-- Presses are undone exactly if they are retraceable. -/
theorem iterate_slowerThan_eq_iff (pos : 1 ≤ speed) (below : StaysBelow speed count) :
    slowerThan^[count] (fasterThan^[count] speed) = speed ↔ Retraceable speed count := by
  constructor
  · intro undone
    by_contra lost
    rw [Retraceable, not_or, Nat.not_le] at lost
    have low := iterate_slowerThan_lt_ten lost.1 below lost.2
    rw [undone] at low
    exact lost.1 (Or.inl (Nat.le_of_lt low))
  · exact iterate_slowerThan_of_retraceable pos below

/-! ## Presses in a session -/

theorem possibleSpeed_of_bounds (pos : 1 ≤ speed) (le : speed ≤ maxSpeed) :
    possibleSpeed speed = speed := by
  rw [possibleSpeed, Nat.max_eq_left pos, Nat.min_eq_left le]

theorem speed_press_faster (panel : Panel) :
    (panel.press .faster).machine.controls.speed = fasterThan panel.machine.controls.speed :=
  possibleSpeed_of_bounds (fasterThan_pos panel.machine.controls.speed_pos) (fasterThan_le _)

theorem speed_press_slower (panel : Panel) :
    (panel.press .slower).machine.controls.speed = slowerThan panel.machine.controls.speed := by
  apply possibleSpeed_of_bounds (slowerThan_pos _)
  exact Nat.le_trans (slowerThan_le panel.machine.controls.speed_pos)
    panel.machine.controls.speed_le

/-- Presses of one key change the speed as often as there are presses. -/
theorem speed_foldl_replicate {key : PanelKey} {change : Nat → Nat}
    (changes : ∀ panel : Panel,
      (panel.press key).machine.controls.speed = change panel.machine.controls.speed)
    (count : Nat) (panel : Panel) :
    ((List.replicate count key).foldl press panel).machine.controls.speed =
      change^[count] panel.machine.controls.speed := by
  induction count generalizing panel with
  | zero => rfl
  | succ count ih =>
      rw [List.replicate_succ, List.foldl_cons, ih, changes, ← Function.iterate_succ_apply]

/-- The speed after a session is known from the presses of the speed keys. -/
theorem speed_session {machine : Machine} {up down : Nat} {events : List PanelEvent}
    (pressed : keysAmong isSpeedKey events =
      List.replicate up .faster ++ List.replicate down .slower) :
    (session machine events).machine.controls.speed =
      slowerThan^[down] (fasterThan^[up] machine.controls.speed) := by
  have alike : (session machine events).machine.controls.speed =
      ((keysAmong isSpeedKey events).foldl press (attach machine)).machine.controls.speed :=
    governs_speed.foldl_handle rfl events
  rw [alike, pressed, List.foldl_append, speed_foldl_replicate speed_press_slower,
    speed_foldl_replicate speed_press_faster]
  rfl

/-- What the speed keys do, when presses are undone and slowing down reverses the order of
two speeds just as said. -/
structure SpeedKeys (undone reversed : Nat → Nat → Prop) : Prop where
  /-- In every session the speed is the one that the presses of the two keys lead to, and
  always possible. -/
  pressed : ∀ (machine : Machine) (up down : Nat) (events : List PanelEvent),
    keysAmong isSpeedKey events = List.replicate up .faster ++ List.replicate down .slower →
      (session machine events).machine.controls.speed =
          slowerThan^[down] (fasterThan^[up] machine.controls.speed) ∧
        1 ≤ slowerThan^[down] (fasterThan^[up] machine.controls.speed) ∧
        slowerThan^[down] (fasterThan^[up] machine.controls.speed) ≤ maxSpeed
  /-- Presses that stay below the highest speed are undone by as many of the other key. -/
  back : ∀ speed count, 1 ≤ speed → speed ≤ maxSpeed → StaysBelow speed count →
    (slowerThan^[count] (fasterThan^[count] speed) = speed ↔ undone speed count)
  /-- Of two speeds the higher one is slowed down to a lower one. -/
  order : ∀ slow fast, 1 ≤ slow → slow ≤ fast → fast ≤ maxSpeed →
    (slowerThan fast < slowerThan slow ↔ reversed slow fast)

/-- Presses are undone if they do not lead over a border without meeting it, and slowing
down reverses the order of speeds at both sides of a border. -/
theorem speed_keys_undo_retraceable : SpeedKeys Retraceable StraddlesBorder where
  pressed := by
    intro machine up down events pressed
    have pos := iterate_fasterThan_pos machine.controls.speed_pos up
    refine ⟨speed_session pressed, iterate_slowerThan_pos pos down, ?_⟩
    exact Nat.le_trans (iterate_slowerThan_le pos down)
      (iterate_fasterThan_le machine.controls.speed_le up)
  back _ _ pos _ below := iterate_slowerThan_eq_iff pos below
  order _ _ pos le _ := slowerThan_lt_slowerThan_iff pos le

/-- From ninety-five one press leads to a hundred and five, and the press back to five. -/
theorem not_speedKeys_ninetyFive : ¬ SpeedKeys (fun _ _ => True) (fun _ _ => False) := by
  intro keys
  have undone : slowerThan^[1] (fasterThan^[1] 95) = 95 :=
    (keys.back 95 1 (by decide) (by decide) (by unfold StaysBelow; decide)).mpr trivial
  have lost : slowerThan^[1] (fasterThan^[1] 95) = 5 := by decide
  rw [lost] at undone
  cases undone

end Panel
end SmallScale
