import SmallScale.CommandLine.Commands
import SmallScale.Panel.Frame

namespace SmallScale

/-!
# The program

The outermost layer: files of the system, standard streams and exit codes.  The
front panel is shown as lines of text and reads its keys from lines of input;
while it waits for a line the machine waits as well.
-/

namespace CommandLine

/-- The wording of the system for a failed operation. -/
def systemReason : IO.Error → String
  | .noFileOrDirectory _ code details => s!"{details} (os error {code})"
  | .permissionDenied _ code details => s!"{details} (os error {code})"
  | .inappropriateType _ code details => s!"{details} (os error {code})"
  | .resourceExhausted _ code details => s!"{details} (os error {code})"
  | .invalidArgument _ code details => s!"{details} (os error {code})"
  | .illegalOperation code details => s!"{details} (os error {code})"
  | other => toString other

/-- The operations on the files of the system. -/
def systemFiles : FileAccess IO where
  readText path := do
    match ← (IO.FS.readBinFile path).toBaseIO with
    | .error e => return .error (systemReason e)
    | .ok content =>
        match String.fromUTF8? content with
        | some text => return .ok text
        | none => return .error FileError.notText.message
  writeText path text := do
    match ← (IO.FS.writeFile path text).toBaseIO with
    | .error e => return .error (systemReason e)
    | .ok () => return .ok ()

def panelWidth : Nat :=
  100

def panelHeight : Nat :=
  43

/-- The accesses that the loop of a machine makes between two lines of keys. -/
def panelAccesses : Nat :=
  10000

def keyOf? : Char → Option PanelKey
  | 'q' => some .quit
  | 'p' => some .toggle
  | 's' => some .step
  | 'i' => some .faster
  | 'k' => some .slower
  | 'd' => some .style
  | 'u' => some .up
  | 'j' => some (.down (PanelView.storeRows panelHeight))
  | _ => none

/-- Show frames and read keys until the panel is quit or the input ends. -/
partial def drivePanel (keys : IO.FS.Stream) (panel : Panel) : IO Unit := do
  let panel := (panel.settle panelAccesses).refresh
  for row in panel.view.draw panelWidth panelHeight do
    IO.println row.text
  let line ← keys.getLine
  if line.isEmpty then return
  let panel := (line.toList.filterMap keyOf?).foldl Panel.press panel
  if panel.quit then return
  drivePanel keys panel

end CommandLine

end SmallScale

def main (arguments : List String) : IO UInt32 := do
  match ← SmallScale.CommandLine.respond SmallScale.CommandLine.systemFiles arguments with
  | .finished code output errors =>
      IO.print output
      IO.eprint errors
      return code.toUInt32
  | .misused =>
      IO.eprintln "error: these arguments make no sense; try --help"
      return 2
  | .openPanel machine =>
      SmallScale.CommandLine.drivePanel (← IO.getStdin) (SmallScale.Panel.attach machine)
      return 0
