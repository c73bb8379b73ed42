import SmallScale.Glyph
import SmallScale.Machine.ControlLoop

namespace SmallScale

/-!
# The front panel

The front panel drives a machine through its controls and shows what the machine
has made known of itself.  Its keys act on two things that never mix: some on the
controls, some on how the store is shown.  Keys do not execute cycles; the control
loop does, in a thread of its own.

The thread makes the state of its machine known through a channel with room for
eight snapshots.  A snapshot that finds no room is lost.  The panel pulls
snapshots from the channel when it gets to it and shows the last one.  Loop,
channel and keys take turns in any order, so a session at the panel is a list of
events.
-/

/-- The speed after a press of the key that speeds up.  The steps grow with the
speed. -/
def fasterThan (speed : Nat) : Nat :=
  let next :=
    if speed < 10 then speed + 1
    else if speed < 100 then speed + 10
    else if speed < maxSpeed then speed + 100
    else speed
  min next maxSpeed

/-- The speed after a press of the key that slows down. -/
def slowerThan (speed : Nat) : Nat :=
  if speed ≤ 10 then max (speed - 1) 1
  else if speed ≤ 100 then speed - 10
  else speed - 100

/-- The keys of the panel. -/
inductive PanelKey where
  | quit
  /-- Draw words in the next style. -/
  | style
  | up
  /-- Scroll down in a view of this many rows. -/
  | down (visibleRows : Nat)
  | faster
  | slower
  /-- Run or stop. -/
  | toggle
  /-- Stop and execute one cycle. -/
  | step
deriving DecidableEq

/-- What happens at the panel and in the thread of its machine. -/
inductive PanelEvent where
  /-- The thread makes its next access.  While it runs freely it is `due` or not
  due to make its state known. -/
  | access (due : Bool)
  /-- The panel takes a snapshot out of the channel. -/
  | receive
  /-- The panel sees whether the thread is finished. -/
  | collect
  | press (key : PanelKey)
deriving DecidableEq

/-- The front panel of a machine. -/
structure Panel where
  loop : ControlLoop
  /-- The thread is about to send a snapshot. -/
  sending : Bool
  /-- The snapshots that are not taken out yet, the oldest one first. -/
  channel : List Snapshot
  /-- The snapshot taken out last. -/
  shown : Snapshot
  style : GlyphStyle
  /-- The number of rows above the view. -/
  scroll : Nat
  /-- Instructions per second as measured. -/
  measured : Nat
  /-- The failure that stopped the machine. -/
  fault : Option String
  /-- The finished thread has been seen. -/
  collected : Bool
  quit : Bool

namespace Panel

/-- The rows of the store view that do not show words: both registers and an
empty row. -/
def registerRows : Nat :=
  3

/-- The number of snapshots that the channel holds. -/
def channelRoom : Nat :=
  8

/-- The panel of a machine whose loop is about to start. -/
def attach (machine : Machine) : Panel where
  loop := ControlLoop.entering machine
  sending := false
  channel := []
  shown := machine.snapshot
  style := .classic
  scroll := 0
  measured := 0
  fault := none
  collected := false
  quit := false

def machine (panel : Panel) : Machine :=
  panel.loop.machine

/-! ## The thread of the machine -/

/-- Whether the thread sends a snapshot when its loop has come from one point to
the next: behind each round while the machine is halted, at a halt, behind a free
cycle when it is due, and when the loop has ended. -/
def sendsBetween (due : Bool) : LoopPoint → LoopPoint → Bool
  | .cycle true, .testCancelled => true
  | .idle, _ => true
  | .testStopped, .testCancelled => true
  | .testStopped, _ => due
  | .clearCancelled _, _ => true
  | _, _ => false

/-- Send a snapshot.  It is lost if there is no room for it. -/
def send (panel : Panel) : Panel :=
  { panel with
    channel :=
      if panel.channel.length < channelRoom then panel.channel ++ [panel.machine.snapshot]
      else panel.channel
    sending := false }

/-- The next access of the thread: to the channel or to the controls. -/
def access (panel : Panel) (due : Bool) : Panel :=
  if panel.sending then panel.send
  else
    { panel with
      loop := panel.loop.advance
      sending := sendsBetween due panel.loop.point panel.loop.advance.point }

/-- The thread has nothing left to do. -/
def finished (panel : Panel) : Bool :=
  panel.loop.result?.isSome && !panel.sending

/-! ## The screen and the keys -/

def receive (panel : Panel) : Panel :=
  match panel.channel with
  | [] => panel
  | oldest :: rest => { panel with shown := oldest, channel := rest }

/-- The failure with which a loop has ended. -/
def faultOf (loop : ControlLoop) : Option String :=
  match loop.result? with
  | some (.error e) => some e.message
  | _ => none

/-- Take note, once, of how a finished thread has ended. -/
def collect (panel : Panel) : Panel :=
  if panel.finished && !panel.collected then
    { panel with fault := faultOf panel.loop, collected := true }
  else panel

def act (panel : Panel) (action : ControlAction) : Panel :=
  { panel with loop := panel.loop.interfere action }

/-- The offset after scrolling down: it grows while rows remain below the view. -/
def scrolledDown (wordCount visibleRows scroll : Nat) : Nat :=
  if scroll + visibleRows < wordCount + registerRows then scroll + 1 else scroll

def press (panel : Panel) : PanelKey → Panel
  | .quit => { panel with quit := true }
  | .style => { panel with style := panel.style.next }
  | .up => { panel with scroll := panel.scroll - 1 }
  | .down visibleRows =>
      { panel with
        scroll := scrolledDown panel.shown.store.wordCount visibleRows panel.scroll }
  | .faster => panel.act (.setSpeed (fasterThan panel.machine.controls.speed))
  | .slower => panel.act (.setSpeed (slowerThan panel.machine.controls.speed))
  | .toggle => panel.act .toggleRunning
  | .step => (panel.act (.setRunning false)).act .requestStep

def handle (panel : Panel) : PanelEvent → Panel
  | .access due => panel.access due
  | .receive => panel.receive
  | .collect => panel.collect
  | .press key => panel.press key

/-- The panel of a machine after some events. -/
def session (machine : Machine) (events : List PanelEvent) : Panel :=
  events.foldl handle (attach machine)

/-! ## Waiting -/

/-- The thread will do nothing new unless a key is pressed. -/
def isSettled (panel : Panel) : Bool :=
  panel.loop.isSettled && !panel.sending

/-- Watch the thread until it settles, for a number of accesses at most. -/
def settle (panel : Panel) : Nat → Panel
  | 0 => panel
  | count + 1 =>
      let next := (panel.access true).receive
      if next.isSettled then next else next.settle count

/-- Take everything out of the channel, then see whether the thread is finished. -/
def refresh (panel : Panel) : Panel :=
  Panel.collect { panel with shown := panel.channel.getLast?.getD panel.shown, channel := [] }

end Panel
end SmallScale
