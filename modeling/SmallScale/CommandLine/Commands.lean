import SmallScale.CommandLine.Arguments
import SmallScale.CommandLine.Files
import SmallScale.CommandLine.Help
import SmallScale.Exchange
import SmallScale.Machine.Run
import SmallScale.Program.Listing

namespace SmallScale
namespace CommandLine

/-!
# Performing commands

Every command first opens its log file, then reads the machine description and
the program, in this order, and fails with the first of these that fails.  What a
command shows of a machine afterwards is a function of the machine alone.

How arguments and structured text are read is left to libraries.
`Libraries.builtIn` are those of the program.
-/

/-- The libraries that commands rely on. -/
structure Libraries where
  readArguments : List String → Request
  json : JsonLibrary

def Libraries.builtIn : Libraries where
  readArguments := CommandLine.readArguments
  json := .builtIn

/-- How a command ends. -/
inductive Outcome where
  /-- It is done, with an exit code and what it wrote. -/
  | finished (code : Nat) (output errors : String)
  /-- The arguments make no sense. -/
  | misused
  /-- The front panel of a machine takes over. -/
  | openPanel (machine : Machine)

/-- A command that went well. -/
def success (output : String) : Outcome :=
  .finished 0 output ""

/-- A command that failed after it wrote something. -/
def failureAfter (output reason : String) : Outcome :=
  .finished 1 output ("❌ " ++ reason ++ "\n")

/-- A command that failed before it wrote anything. -/
def failure (reason : String) : Outcome :=
  failureAfter "" reason

/-- Why the description in a file gives no model. -/
inductive ModelFileError where
  | unreadable (reason : String)
  | invalid (cause : ExchangeError)

/-- The wording for a text that is no description of a machine. -/
def invalidText : ExchangeError → String
  | .malformed => "not a machine description"
  | .invalidWord cause => cause.message
  | .invalidModel cause => cause.message

def ModelFileError.message : ModelFileError → String
  | .unreadable reason => "cannot read model: " ++ reason
  | .invalid cause => "invalid model description: " ++ invalidText cause

def modelOfTextBy (library : JsonLibrary) (text : String) : Except ModelFileError Model :=
  (readExchangedBy library Model.ofJson text).mapError .invalid

def modelOfText (text : String) : Except ModelFileError Model :=
  modelOfTextBy .builtIn text

def fileFailure (path reason : String) : String :=
  "I/O error: " ++ path ++ ": " ++ reason

/-- The lines of a result: the number of cycles, the state, both registers and the
store. -/
def resultText (machine : Machine) (executed : Nat) : String :=
  let registers := machine.registers
  "\n━━━ Result ━━━\nCycles: " ++ Decimal.text executed ++
    "\nState: " ++ machine.state.name ++
    "\nCI: " ++ registers.control.toClassic ++ " (" ++ Decimal.text registers.controlValue ++ ")" ++
    "\nA:  " ++ registers.accumulator.toClassic ++ " (" ++
      Decimal.signedText registers.accumulatorValue ++ ")" ++
    "\n\n" ++ machine.store.picture .classic ++ "\n"

/-- The warning about a run that the limit has ended. -/
def limitText (machine : Machine) (maxCycles : Nat) : String :=
  if machine.controls.running then
    "\n⚠️  Reached max cycles limit (" ++ Decimal.text maxCycles ++
      "). Use --max-cycles to increase.\n"
  else ""

/-- The reason given for a cycle that failed. -/
def faultText (machine : Machine) (cause : MachineError) : String :=
  "Runtime error at CI=" ++ Decimal.text machine.registers.controlValue ++ ": " ++ cause.message

def traceLine (row : Machine.TraceRow) : String :=
  row.executed.text ++ "  A=" ++ Decimal.signedText row.registers.accumulatorValue ++ "\n"

def traceText (rows : List Machine.TraceRow) : String :=
  "\n━━━ Execution ━━━\n" ++ String.join (rows.map traceLine)

def runHeader (program : String) : String :=
  "🔧 Running: " ++ program ++ "\n"

/-- Run a machine without showing its instructions. -/
def plainRun (program : String) (machine : Machine) (maxCycles : Nat) : Outcome :=
  match machine.runToHalt maxCycles with
  | (after, .error cause) => failureAfter (runHeader program) (faultText after cause)
  | (after, .ok executed) =>
      success (runHeader program ++ resultText after executed ++ limitText after maxCycles)

/-- Run a machine and show every instruction. -/
def tracedRun (program : String) (machine : Machine) (maxCycles : Nat) : Outcome :=
  let trace := machine.trace maxCycles
  let shown := runHeader program ++ traceText trace.rows
  match trace.failure with
  | some cause => failureAfter shown (faultText trace.machine cause)
  | none =>
      success (shown ++ resultText trace.machine trace.rows.length ++
        limitText trace.machine maxCycles)

def modelOfFile (library : JsonLibrary) (path : String) :
    Except String String → Except String Model
  | .error reason =>
      .error ("Invalid machine model " ++ path ++ ": " ++ (ModelFileError.unreadable reason).message)
  | .ok text =>
      (modelOfTextBy library text).mapError fun e =>
        "Invalid machine model " ++ path ++ ": " ++ e.message

/-- The machine of a model with the program of a file, from what reading the file
gave. -/
def machineOfFile (model : Model) (path : String) : Except String String → Except String Machine
  | .error reason => .error ("Failed to load " ++ path ++ ": " ++ fileFailure path reason)
  | .ok text =>
      ((Machine.initial model).load text).mapError fun e =>
        "Failed to load " ++ path ++ ": " ++ e.message

section Performing

variable {m : Type → Type} [Monad m] (libraries : Libraries)

/-- The model of a command: that of a file, or the machine of 1948. -/
def readModel (files : FileAccess m) (path : Option String) : m (Except String Model) := do
  match path with
  | none => return .ok Model.smallScale
  | some path => return modelOfFile libraries.json path (← files.readText path)

/-- The machine of a command with its program loaded. -/
def readMachine (files : FileAccess m) (invocation : Invocation) :
    m (Except String Machine) := do
  match ← readModel libraries files invocation.model with
  | .error reason => return .error reason
  | .ok model =>
      return machineOfFile model invocation.program (← files.readText invocation.program)

def saveDump (files : FileAccess m) (path : String) (store : Store) : m Outcome := do
  match ← files.writeText path (Program.Dump.write store) with
  | .error reason => return failure ("Failed to save dump: " ++ fileFailure path reason)
  | .ok () => return success ("✓ Saved to " ++ path ++ "\n")

/-- What a command does with its machine. -/
def performOn (files : FileAccess m) (invocation : Invocation) (machine : Machine) :
    m Outcome := do
  match invocation.command with
  | .run maxCycles false => return plainRun invocation.program machine maxCycles
  | .run maxCycles true => return tracedRun invocation.program machine maxCycles
  | .debug none => return .openPanel machine
  | .debug (some speed) => return .openPanel (machine.act (.setSpeed speed))
  | .dump none => return success (Program.Dump.write machine.store)
  | .dump (some path) => saveDump files path machine.store
  | .disasm => return success (Program.Listing.write machine.model machine.store)

def openLog (files : FileAccess m) (path : Option String) : m (Except String Unit) := do
  match path with
  | none => return .ok ()
  | some path =>
      return (← files.writeText path "").mapError fun reason =>
        "Failed to open log file: " ++ reason

def perform (files : FileAccess m) (invocation : Invocation) : m Outcome := do
  match ← openLog files invocation.logFile with
  | .error reason => return failure reason
  | .ok () =>
      match ← readMachine libraries files invocation with
      | .error reason => return failure reason
      | .ok machine => performOn files invocation machine

/-- Do what the arguments ask for. -/
def respondBy (files : FileAccess m) (arguments : List String) : m Outcome := do
  match libraries.readArguments arguments with
  | .perform invocation => perform libraries files invocation
  | .showVersion => return success (programName ++ " " ++ programVersion ++ "\n")
  | .showHelp place => return success (helpText place)
  | .misuse => return .misused

/-- Do what the arguments ask for, with the libraries of the program. -/
def respond (files : FileAccess m) (arguments : List String) : m Outcome :=
  respondBy .builtIn files arguments

end Performing

end CommandLine
end SmallScale
