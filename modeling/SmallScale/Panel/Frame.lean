import SmallScale.Panel
import SmallScale.Panel.Screen

namespace SmallScale

/-!
# Frames of the front panel

A frame has three boxes below each other: the status, the store and the keys.
The first and the last ask for three rows; the store takes the rest.  Its view
lists both registers, an empty row and all words, without the rows scrolled
away.  A toolkit lays the boxes out and draws them.
-/

/-- What a frame shows. -/
structure PanelView where
  model : Model
  shown : Snapshot
  desired : Nat
  measured : Nat
  style : GlyphStyle
  scroll : Nat
  fault : Option String

def Panel.view (panel : Panel) : PanelView where
  model := panel.machine.model
  shown := panel.shown
  desired := panel.machine.controls.speed
  measured := panel.measured
  style := panel.style
  scroll := panel.scroll
  fault := panel.fault

namespace PanelView

/-- The rows of a frame that are not rows of the store view. -/
def chromeRows : Nat :=
  8

def storeRows (height : Nat) : Nat :=
  height - chromeRows

/-- Text that stands out in no way. -/
def plain (text : String) : ScreenRow :=
  ScreenRow.ofText Look.default text

/-- The word for what the machine does. -/
def status (view : PanelView) : ScreenRow :=
  if view.fault.isSome then ScreenRow.ofText (.bold .red) "FAULT"
  else if view.shown.state = .running then ScreenRow.ofText (.bold .green) "RUNNING"
  else ScreenRow.ofText (.bold .yellow) "STOPPED"

/-- The last instruction, or a place holder. -/
def lastText (view : PanelView) : String :=
  (view.shown.last.map Executed.text).getD "-- --- --"

def statusLine (view : PanelView) : ScreenRow :=
  plain "[ STATUS: " ++ view.status ++
    plain (" ]  [ CYCLES: " ++ Decimal.text view.shown.cycles ++ " ]  ") ++
    ScreenRow.ofText (.coloured .cyan) ("[ " ++ view.lastText ++ " ]") ++
    plain ("  [ SPEED: " ++ Decimal.text view.measured ++ "/" ++ Decimal.text view.desired ++
      " ips ]") ++
    match view.fault with
    | some fault => ScreenRow.ofText (.coloured .red) ("  " ++ fault)
    | none => []

/-- The row of a register: its bits, its name and its value. -/
def registerLine (view : PanelView) (w : Word) (name value : String) : ScreenRow :=
  ScreenRow.ofText (.bold .green) (" " ++ w.render view.style) ++
    plain ("  " ++ name ++ " = " ++ Decimal.alignedRight 11 value)

/-- The row of a word.  The one that the control instruction points to is
marked. -/
def wordLine (view : PanelView) (address : Nat) (w : Word) : ScreenRow :=
  let marked := address = view.shown.registers.controlValue
  let look : Look :=
    if marked then .bold .yellow else if w.isZero then .coloured .darkGray else .bold .green
  ScreenRow.ofText look ((if marked then ">" else " ") ++ w.render view.style) ++
    ScreenRow.ofText (.coloured .darkGray)
      ("  " ++ Decimal.padded 2 address ++ " " ++ view.model.wordText w)

def storeLines (view : PanelView) : List ScreenRow :=
  let registers := view.shown.registers
  view.registerLine registers.control "CI" (Decimal.text registers.controlValue) ::
    view.registerLine registers.accumulator "A " (Decimal.signedText registers.accumulatorValue) ::
    [] ::
    view.shown.store.words.zipIdx.map fun (w, address) => view.wordLine address w

/-- The offset of the view.  A screen cannot scroll further than this. -/
def visibleScroll (view : PanelView) : Nat :=
  min view.scroll 65535

def keyCap (label : String) : ScreenRow :=
  ScreenRow.ofText ⟨.gray, .reversed⟩ label

def keyUse (label : String) : ScreenRow :=
  ScreenRow.ofText (.coloured .gray) label

def keyLine : ScreenRow :=
  keyCap " Q " ++ keyUse " QUIT  " ++ keyCap " P " ++ keyUse " RUN/STOP  " ++
    keyCap "F10" ++ keyUse " STEP  " ++ keyCap " I " ++ keyUse " SPEED UP  " ++
    keyCap " K " ++ keyUse " SPEED DOWN  " ++ keyCap " D " ++ keyUse " DISPLAY  " ++
    keyUse "↑↓ SCROLL"

def statusBox (view : PanelView) : Box where
  border := Look.default
  inside := Look.default
  title := ""
  lines := [view.statusLine]
  scroll := 0

def storeBox (view : PanelView) : Box where
  border := .coloured .magenta
  inside := Look.default
  title := " Store "
  lines := view.storeLines
  scroll := view.visibleScroll

def keyBox : Box where
  border := .coloured .gray
  inside := .coloured .gray
  title := ""
  lines := [keyLine]
  scroll := 0

/-- What the three boxes ask for. -/
def extents : List Extent :=
  [.exactly 3, .atLeast 5, .exactly 3]

/-- A frame of this size, drawn with a toolkit. -/
def drawWith (toolkit : Toolkit) (view : PanelView) (width height : Nat) : List ScreenRow :=
  let heights := toolkit.split extents height
  toolkit.paragraph view.statusBox width (heights.getD 0 0) ++
    toolkit.paragraph view.storeBox width (heights.getD 1 0) ++
    toolkit.paragraph keyBox width (heights.getD 2 0)

/-- A frame of at least eleven rows and three columns. -/
def draw (view : PanelView) (width height : Nat) : List ScreenRow :=
  view.drawWith .builtIn width height

end PanelView
end SmallScale
