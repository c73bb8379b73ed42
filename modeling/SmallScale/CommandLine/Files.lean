namespace SmallScale
namespace CommandLine

/-!
# Files

Commands see files only through two operations, reading a text and writing one.
`Directory` gives both on a tree of files held in memory, under the rules for
paths of a Unix system: empty and `.` steps lead nowhere, a directory exists
because a file lies in it, and nothing exists outside the tree.
-/

/-- The two operations on files, each with the reason if it fails. -/
structure FileAccess (m : Type → Type) where
  readText : String → m (Except String String)
  writeText : String → String → m (Except String Unit)

/-- Why an operation on a file fails. -/
inductive FileError where
  | missing
  | notDirectory
  | isDirectory
  | notText
deriving DecidableEq

def FileError.message : FileError → String
  | .missing => "No such file or directory (os error 2)"
  | .notDirectory => "Not a directory (os error 20)"
  | .isDirectory => "Is a directory (os error 21)"
  | .notText => "stream did not contain valid UTF-8"

/-- Files with their steps and contents. -/
structure Directory where
  files : List (List String × ByteArray)

/-- What lies at the end of some steps. -/
inductive Entry where
  | file (content : ByteArray)
  | directory
  | nothing

namespace Directory

/-- The steps of a path.  Empty steps lie between two slashes and behind the last
one. -/
def stepsOf (path : String) : List String :=
  path.splitOn "/"

def ofFiles (files : List (String × ByteArray)) : Directory :=
  ⟨files.map fun (path, content) => (stepsOf path, content)⟩

/-- What lies at the end of some steps.  A directory exists because a file lies in
it, the outermost one always. -/
def entry (directory : Directory) (steps : List String) : Entry :=
  match directory.files.lookup steps with
  | some content => .file content
  | none =>
      if steps.isEmpty || directory.files.any fun (file, _) => steps.isPrefixOf file then
        .directory
      else .nothing

/-- Follow a path from where earlier steps led.  Every step starts in a directory,
`.` and empty steps stay there and `..` goes back. -/
def follow (directory : Directory) (place : List String) :
    List String → Except FileError (List String)
  | [] => .ok place
  | step :: rest =>
      match directory.entry place with
      | .file _ => .error .notDirectory
      | .nothing => .error .missing
      | .directory =>
          if step = "" ∨ step = "." then directory.follow place rest
          else if step = ".." then
            if place.isEmpty then .error .missing else directory.follow place.dropLast rest
          else directory.follow (place ++ [step]) rest

/-- Where a path leads.  Nothing is known outside the directory. -/
def locate (directory : Directory) (path : String) : Except FileError (List String) :=
  if path.startsWith "/" then .error .missing else directory.follow [] (stepsOf path)

def readBytes (directory : Directory) (path : String) : Except FileError ByteArray :=
  match directory.locate path with
  | .error e => .error e
  | .ok place =>
      match directory.entry place with
      | .file content => .ok content
      | .directory => .error .isDirectory
      | .nothing => .error .missing

def readText (directory : Directory) (path : String) : Except FileError String :=
  match directory.readBytes path with
  | .error e => .error e
  | .ok content =>
      match String.fromUTF8? content with
      | some text => .ok text
      | none => .error .notText

/-- The path without the slashes at its end. -/
def withoutSlash (path : String) : String :=
  String.ofList (path.toList.reverse.dropWhile (· == '/')).reverse

/-- The directory with a file created or replaced.  A slash at the end of the path
asks for a directory, which is nothing that can be written to. -/
def writeText (directory : Directory) (path text : String) : Except FileError Directory :=
  match directory.locate (withoutSlash path) with
  | .error e => .error e
  | .ok place =>
      match directory.entry place with
      | .directory => .error .isDirectory
      | _ =>
          if path.endsWith "/" then .error .isDirectory
          else
            .ok ⟨(place, text.toUTF8) :: directory.files.filter fun (file, _) => file ≠ place⟩

/-- The operations on files in a directory that changes. -/
def access : FileAccess (StateM Directory) where
  readText path := do
    return ((← get).readText path).mapError FileError.message
  writeText path text := do
    match (← get).writeText path text with
    | .error e => return .error e.message
    | .ok directory =>
        set directory
        return .ok ()

end Directory
end CommandLine
end SmallScale
