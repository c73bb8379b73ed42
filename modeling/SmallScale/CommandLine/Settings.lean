namespace SmallScale
namespace CommandLine

/-!
# Commands and their settings

The program has four commands.  Each takes the file of a program and some
settings of its own; a few settings are understood by all of them.  This module
is the table of both, from which arguments are read and help is written.
-/

/-- The name under which the program runs. -/
def programName : String :=
  "ssem-emu"

def programVersion : String :=
  "0.1.0"

def programAbout : String :=
  "An emulator of the Manchester Small-Scale Experimental Machine (1948)"

/-- The word that asks for help. -/
def helpWord : String :=
  "help"

def helpAbout : String :=
  "Print this message or the help of the given subcommand(s)"

/-- The commands. -/
inductive CommandName where
  | run
  | debug
  | dump
  | disasm
deriving DecidableEq, Inhabited

namespace CommandName

/-- All commands, in the order in which they are listed. -/
def all : List CommandName :=
  [run, debug, dump, disasm]

def word : CommandName → String
  | run => "run"
  | debug => "debug"
  | dump => "dump"
  | disasm => "disasm"

def about : CommandName → String
  | run => "Run a program until it halts"
  | debug => "Interactive front panel"
  | dump => "Load a program and write the store as a binary dump"
  | disasm => "Load a program and print a best-effort disassembly"

/-- What the file of a command is. -/
def fileAbout : CommandName → String
  | run => "Path to the assembly or binary dump file to execute"
  | debug => "Path to the program to debug"
  | dump => "Path to the program"
  | disasm => "Path to the program"

def ofWord? (word : String) : Option CommandName :=
  all.find? fun name => name.word == word

end CommandName

/-- Where help is asked for. -/
inductive HelpPlace where
  /-- Before any command. -/
  | general
  /-- Behind a command. -/
  | command (name : CommandName)
  /-- Behind the word for help. -/
  | help
deriving DecidableEq, Inhabited

/-- The settings of all commands. -/
inductive Setting where
  | verbose
  | logFile
  | help
  | version
  | maxCycles
  | trace
  | model
  | speed
  | output
deriving DecidableEq, Inhabited

namespace Setting

/-- The long name of a setting, written behind two dashes. -/
def name : Setting → String
  | verbose => "verbose"
  | logFile => "log-file"
  | help => "help"
  | version => "version"
  | maxCycles => "max-cycles"
  | trace => "trace"
  | model => "model"
  | speed => "speed"
  | output => "output"

/-- The letter of a setting, written behind one dash. -/
def letter? : Setting → Option Char
  | verbose => some 'v'
  | logFile => none
  | help => some 'h'
  | version => some 'V'
  | maxCycles => some 'm'
  | trace => some 't'
  | model => none
  | speed => some 's'
  | output => some 'o'

/-- What stands for the value of a setting in the help text; a setting without
one is a mere flag. -/
def placeholder? : Setting → Option String
  | verbose => none
  | logFile => some "LOG_FILE"
  | help => none
  | version => none
  | maxCycles => some "MAX_CYCLES"
  | trace => none
  | model => some "MODEL"
  | speed => some "SPEED"
  | output => some "OUTPUT"

/-- A setting that may be given more than once. -/
def repeatable : Setting → Bool
  | verbose => true
  | _ => false

def about : Setting → String
  | verbose => "Increase log verbosity (-v info, -vv debug, -vvv trace)"
  | logFile => "Write logs to this file instead of stderr"
  | help => "Print help"
  | version => "Print version"
  | maxCycles => "Maximum number of cycles to run [default: 10000]"
  | trace => "Print every executed instruction"
  | model => "JSON machine description (default: the SSEM)"
  | speed => "Desired speed in instructions per second"
  | output => "Output file (default: standard output)"

/-- The settings understood before any command, in the order of the help text. -/
def general : List Setting :=
  [verbose, logFile, help, version]

/-- The settings understood behind a command, in the order of the help text. -/
def of : CommandName → List Setting
  | .run => [maxCycles, verbose, logFile, trace, model, help]
  | .debug => [speed, verbose, logFile, model, help]
  | .dump => [output, verbose, logFile, model, help]
  | .disasm => [model, verbose, logFile, help]

end Setting
end CommandLine
end SmallScale
