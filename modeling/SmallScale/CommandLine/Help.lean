import SmallScale.CommandLine.Settings

namespace SmallScale
namespace CommandLine

/-!
# Help text

Help lists what is understood at a place: before any command, or behind one.
The explanations of a list start in one column.
-/

/-- A line of a list with its explanation in the column that the widest label
leaves free. -/
def listLine (width : Nat) (label explanation : String) : String :=
  "  " ++ label ++ String.ofList (List.replicate (width - label.length + 2) ' ') ++ explanation ++
    "\n"

/-- A list with its explanations in one column. -/
def aligned (entries : List (String × String)) : String :=
  let width := (entries.map fun (label, _) => label.length).foldl max 0
  String.join (entries.map fun (label, explanation) => listLine width label explanation)

def Setting.label (setting : Setting) : String :=
  (match setting.letter? with
    | some letter => "-" ++ letter.toString ++ ", "
    | none => "    ") ++
    "--" ++ setting.name ++
    (match setting.placeholder? with
      | some placeholder => " <" ++ placeholder ++ ">"
      | none => if setting.repeatable then "..." else "")

def settingsList (settings : List Setting) : String :=
  "Options:\n" ++ aligned (settings.map fun setting => (setting.label, setting.about))

def generalHelp : String :=
  programAbout ++ "\n\nUsage: " ++ programName ++ " [OPTIONS] <COMMAND>\n\nCommands:\n" ++
    aligned
      ((CommandName.all.map fun name => (name.word, name.about)) ++
        [(helpWord, helpAbout)]) ++
    "\n" ++ settingsList Setting.general

def commandHelp (name : CommandName) : String :=
  name.about ++ "\n\nUsage: " ++ programName ++ " " ++ name.word ++
    " [OPTIONS] <PROGRAM>\n\nArguments:\n" ++ aligned [("<PROGRAM>", name.fileAbout)] ++ "\n" ++
    settingsList (Setting.of name)

def helpHelp : String :=
  helpAbout ++ "\n\nUsage: " ++ programName ++ " " ++ helpWord ++
    " [COMMAND]...\n\nArguments:\n" ++
    aligned [("[COMMAND]...", "Print help for the subcommand(s)")]

def helpText : HelpPlace → String
  | .general => generalHelp
  | .command name => commandHelp name
  | .help => helpHelp

end CommandLine
end SmallScale
