namespace SmallScale

/-!
# Controls

A running machine and the surface that controls it share four inputs: a
request to end the run, the run flag, the desired speed and the number of
single steps still to be taken.  Each is read and written on its own.  The
speed is always possible.  Pending steps are counted modulo `2 ^ 32`.
-/

/-- The highest speed that can be asked for, in instructions per second. -/
def maxSpeed : Nat :=
  10000000

/-- A speed brought into the possible range. -/
def possibleSpeed (wish : Nat) : Nat :=
  min (max wish 1) maxSpeed

theorem possibleSpeed_pos (wish : Nat) : 1 ≤ possibleSpeed wish := by
  unfold possibleSpeed maxSpeed
  omega

theorem possibleSpeed_le (wish : Nat) : possibleSpeed wish ≤ maxSpeed :=
  Nat.min_le_right _ _

/-- The inputs shared between a machine and its control surface. -/
structure Controls where
  cancelled : Bool
  running : Bool
  speed : Nat
  pending : UInt32
  speed_pos : 1 ≤ speed
  speed_le : speed ≤ maxSpeed
deriving DecidableEq

/-- What a control surface can do. -/
inductive ControlAction where
  | cancel
  | withdrawCancel
  | setRunning (running : Bool)
  | toggleRunning
  | setSpeed (wish : Nat)
  | requestStep
deriving DecidableEq

namespace Controls

/-- The controls of a halted machine. -/
def initial (wish : Nat) : Controls where
  cancelled := false
  running := false
  speed := possibleSpeed wish
  pending := 0
  speed_pos := possibleSpeed_pos wish
  speed_le := possibleSpeed_le wish

/-- Ask the run to end, or withdraw the request. -/
def setCancelled (controls : Controls) (cancelled : Bool) : Controls :=
  { controls with cancelled }

def setRunning (controls : Controls) (running : Bool) : Controls :=
  { controls with running }

/-- Set the speed, brought into the possible range. -/
def setSpeed (controls : Controls) (wish : Nat) : Controls :=
  { controls with
    speed := possibleSpeed wish
    speed_pos := possibleSpeed_pos wish
    speed_le := possibleSpeed_le wish }

/-- Ask for one more single step. -/
def requestStep (controls : Controls) : Controls :=
  { controls with pending := controls.pending + 1 }

/-- Take one of the single steps asked for, if there is one. -/
def takeStep? (controls : Controls) : Option Controls :=
  if controls.pending = 0 then none
  else some { controls with pending := controls.pending - 1 }

/-- The effect of one action of a control surface. -/
def act (controls : Controls) : ControlAction → Controls
  | .cancel => controls.setCancelled true
  | .withdrawCancel => controls.setCancelled false
  | .setRunning running => controls.setRunning running
  | .toggleRunning => controls.setRunning (!controls.running)
  | .setSpeed wish => controls.setSpeed wish
  | .requestStep => controls.requestStep

instance : Inhabited Controls :=
  ⟨initial 1⟩

end Controls
end SmallScale
