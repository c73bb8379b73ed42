import SmallScale.CommandLine.Settings
import SmallScale.Text.Decimal

namespace SmallScale
namespace CommandLine

/-!
# Reading arguments

Arguments are read from left to right.  Settings before the word of a command are
the general ones, those behind it the ones of the command.  A long name takes its
value behind an equals sign or from the next argument.  Letters may be joined
behind one dash; the value of the last one may follow at once.  The value of a
setting must not look like a setting itself.  Behind two lone dashes everything
is a word.  Asking for help or for the version ends the reading, and so does the
first misuse, whichever comes first.
-/

/-- A command with its own settings. -/
inductive Command where
  | run (maxCycles : Nat) (trace : Bool)
  | debug (speed : Option Nat)
  | dump (output : Option String)
  | disasm
deriving DecidableEq

/-- All that a command needs to be performed. -/
structure Invocation where
  command : Command
  program : String
  model : Option String
  logFile : Option String
deriving DecidableEq

/-- What the arguments ask for. -/
inductive Request where
  | perform (invocation : Invocation)
  | showVersion
  | showHelp (place : HelpPlace)
  | misuse
deriving DecidableEq

/-- Why the reading of arguments ends early. -/
inductive Interruption where
  | misuse
  | help
  | version
deriving DecidableEq

/-- What was given so far at one place. -/
structure Given where
  flags : List Setting
  values : List (Setting × String)
  words : List String

namespace Given

def nothing : Given :=
  ⟨[], [], []⟩

def value? (given : Given) (setting : Setting) : Option String :=
  given.values.lookup setting

def has (given : Given) (setting : Setting) : Bool :=
  given.flags.contains setting || (given.value? setting).isSome

def flag (given : Given) (setting : Setting) : Except Interruption Given :=
  match setting with
  | .help => .error .help
  | .version => .error .version
  | setting =>
      if given.has setting && !setting.repeatable then .error .misuse
      else .ok { given with flags := setting :: given.flags }

end Given

/-- The speed that a text spells: a signed number that is an unsigned 32-bit
one. -/
def speedOf? (text : String) : Option Nat :=
  match Decimal.readSigned? text.toList with
  | some value => if 0 ≤ value ∧ value < UInt32.size then some value.toNat else none
  | none => none

/-- The number of cycles that a text spells. -/
def cyclesOf? (text : String) : Option Nat :=
  Decimal.readUnsigned? text.toList

/-- A text that can be the value of a setting: a number where one is wanted, and
the name of a file must not be empty. -/
def Setting.accepts (setting : Setting) (text : String) : Bool :=
  match setting with
  | .maxCycles => (cyclesOf? text).isSome
  | .speed => (speedOf? text).isSome
  | _ => !text.isEmpty

def Given.value (given : Given) (setting : Setting) (text : String) : Except Interruption Given :=
  if given.has setting || !setting.accepts text then .error .misuse
  else .ok { given with values := (setting, text) :: given.values }

/-- An argument that looks like a setting: a dash with something behind it. -/
def looksLikeSetting (argument : String) : Bool :=
  match argument.toList with
  | '-' :: _ :: _ => true
  | _ => false

/-- A long name and what follows its first equals sign. -/
def cutAtEquals : List Char → List Char × Option (List Char)
  | [] => ([], none)
  | '=' :: rest => ([], some rest)
  | c :: rest =>
      let (name, value) := cutAtEquals rest
      (c :: name, value)

/-- What an argument leaves to do: nothing, or to take the value of a setting from
the next argument. -/
abbrev Pending :=
  Given × Option Setting

def readLetters (understood : List Setting) (given : Given) :
    List Char → Except Interruption Pending
  | [] => .ok (given, none)
  | letter :: rest =>
      match understood.find? fun setting => setting.letter? == some letter with
      | none => .error .misuse
      | some setting =>
          if setting.placeholder?.isNone then
            match given.flag setting with
            | .error e => .error e
            | .ok given => readLetters understood given rest
          else
            match rest with
            | [] => .ok (given, some setting)
            | '=' :: text => (given.value setting (String.ofList text)).map fun given => (given, none)
            | text => (given.value setting (String.ofList text)).map fun given => (given, none)

def readName (understood : List Setting) (given : Given) (written : List Char) :
    Except Interruption Pending :=
  let (name, value) := cutAtEquals written
  match understood.find? fun setting => setting.name.toList == name with
  | none => .error .misuse
  | some setting =>
      if setting.placeholder?.isNone then
        if value.isSome then .error .misuse
        else (given.flag setting).map fun given => (given, none)
      else
        match value with
        | some text => (given.value setting (String.ofList text)).map fun given => (given, none)
        | none => .ok (given, some setting)

def readSetting (understood : List Setting) (given : Given) (argument : String) :
    Except Interruption Pending :=
  match argument.toList with
  | '-' :: '-' :: written => readName understood given written
  | '-' :: letters => readLetters understood given letters
  | _ => .error .misuse

/-- Take a word: the file of the program, and nothing more. -/
def Given.word (given : Given) (word : String) : Except Interruption Given :=
  if given.words.isEmpty && !word.isEmpty then .ok { given with words := [word] }
  else .error .misuse

/-- Read the arguments behind a command. -/
def readBehind (understood : List Setting) (given : Given) :
    List String → Except Interruption Given
  | [] => .ok given
  | argument :: rest =>
      if argument = "--" then
        rest.foldlM (fun given word => given.word word) given
      else if looksLikeSetting argument then
        match readSetting understood given argument with
        | .error e => .error e
        | .ok (given, none) => readBehind understood given rest
        | .ok (given, some setting) =>
            match rest with
            | [] => .error .misuse
            | text :: rest =>
                if looksLikeSetting text then .error .misuse
                else
                  match given.value setting text with
                  | .error e => .error e
                  | .ok given => readBehind understood given rest
      else
        match given.word argument with
        | .error e => .error e
        | .ok given => readBehind understood given rest

def commandOf (name : CommandName) (given : Given) : Command :=
  match name with
  | .run =>
      .run (((given.value? .maxCycles).bind cyclesOf?).getD 10000) (given.has .trace)
  | .debug => .debug ((given.value? .speed).bind speedOf?)
  | .dump => .dump (given.value? .output)
  | .disasm => .disasm

def Interruption.request (place : HelpPlace) : Interruption → Request
  | .misuse => .misuse
  | .help => .showHelp place
  | .version => .showVersion

/-- The request of a command.  A general setting that is repeated behind the
command counts as given there. -/
def requestOf (name : CommandName) (before : Given) (arguments : List String) : Request :=
  match readBehind (Setting.of name) Given.nothing arguments with
  | .error e => e.request (.command name)
  | .ok given =>
      match given.words with
      | [program] =>
          .perform {
            command := commandOf name given
            program
            model := given.value? .model
            logFile := (given.value? .logFile).or (before.value? .logFile) }
      | _ => .misuse

def helpRequest : List String → Request
  | [] => .showHelp .general
  | [word] =>
      if word = helpWord then .showHelp .help
      else
        match CommandName.ofWord? word with
        | some name => .showHelp (.command name)
        | none => .misuse
  | _ => .misuse

/-- Read the arguments before a command, and then the command. -/
def readBefore (given : Given) : List String → Request
  | [] => .misuse
  | argument :: rest =>
      if looksLikeSetting argument then
        match readSetting Setting.general given argument with
        | .error e => e.request .general
        | .ok (given, none) => readBefore given rest
        | .ok (given, some setting) =>
            match rest with
            | [] => .misuse
            | text :: rest =>
                if looksLikeSetting text then .misuse
                else
                  match given.value setting text with
                  | .error e => e.request .general
                  | .ok given => readBefore given rest
      else if argument = helpWord then helpRequest rest
      else
        match CommandName.ofWord? argument with
        | some name => requestOf name given rest
        | none => .misuse

def readArguments (arguments : List String) : Request :=
  readBefore Given.nothing arguments

end CommandLine
end SmallScale
