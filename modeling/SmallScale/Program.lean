import SmallScale.Program.Assembly
import SmallScale.Program.Dump
import SmallScale.Program.Format

namespace SmallScale
namespace Program

/-!
# Loading programs

Loading a program replaces the whole store or nothing.  The words of a program
fill the store from address zero on and clear words fill the rest.  If a single
line is faulty the program is rejected with every fault of every line, and so it
is if it has more words than the store.
-/

/-- How the line that should have a certain address is read. -/
abbrev LineReader :=
  Nat → List Char → LineReading

/-- The faults of a program, line by line. -/
def diagnose (reader : LineReader) (wordCount : Nat) (lines : List Line) : List Diagnostic :=
  lines.zipIdx.flatMap fun (line, address) =>
    let overflow := if address < wordCount then none else some (.tooManyWords (wordCount - 1))
    ((reader address line.text).faults overflow).map fun fault =>
      ⟨line.number, String.ofList line.text, fault⟩

/-- The words of a program as far as its lines stand for words. -/
def programWords (reader : LineReader) (lines : List Line) : List Word :=
  lines.zipIdx.filterMap fun (line, address) => (reader address line.text).word.toOption

/-- A store of the shape of another one that holds the given words and is clear
behind them. -/
def imageOf (words : List Word) (target : Store) : Store :=
  { target with
    words := words ++
      List.replicate (target.wordCount - words.length) (Word.zero target.wordLength) }

/-- Read a program with a reader for its lines. -/
def readWith (reader : LineReader) (source : List Char) (target : Store) :
    Except LoadError Store :=
  let lines := meaningfulLines source
  match diagnose reader target.wordCount lines with
  | [] => .ok (imageOf (programWords reader lines) target)
  | diagnostics => .error (.rejected diagnostics)

/-- The store with a program in place of its contents. -/
def load (model : Model) (source : String) (target : Store) : Except LoadError Store :=
  if target.wordLength ≠ model.wordLength then
    .error (.storeWidth target.wordLength model.wordLength)
  else
    match detect source.toList with
    | .assembly =>
        readWith (Assembly.read model target.wordCount) source.toList target
    | .dump => readWith (Dump.read target.wordLength) source.toList target
    | .unknown => .error .unknownFormat

end Program
end SmallScale
