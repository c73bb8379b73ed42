import SmallScale.Text.Blank

namespace SmallScale
namespace Program

/-!
# Lines of a program

Program text comes in lines.  A semicolon starts a comment that lasts to the
end of its line.  What is left of a line without its comment and the blanks
around it is its meaning; lines with nothing left are skipped, but they count
for the line numbers in reports.
-/

/-- A line that means something. -/
structure Line where
  /-- The number of the line in the text, counted from one. -/
  number : Nat
  text : List Char
deriving DecidableEq

/-- A line without its comment and without blanks around it. -/
def meaning (line : List Char) : List Char :=
  Text.trim (line.takeWhile (· != ';'))

/-- The lines that mean something, in order. -/
def meaningfulLines (source : List Char) : List Line :=
  ((Text.splitWhere (· == '\n') source).zipIdx 1).filterMap fun (line, number) =>
    if (meaning line).isEmpty then none else some ⟨number, meaning line⟩

/-- Cut a line at the first colon that a space follows; both are dropped. -/
def cutAtColon : List Char → Option (List Char × List Char)
  | [] => none
  | ':' :: ' ' :: rest => some ([], rest)
  | c :: rest => (cutAtColon rest).map fun (before, after) => (c :: before, after)

end Program
end SmallScale
