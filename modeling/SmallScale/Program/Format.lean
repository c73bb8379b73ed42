import SmallScale.Program.Line
import SmallScale.Text.Decimal
import SmallScale.Text.Letter

namespace SmallScale
namespace Program

/-!
# Program formats

A program is written either as assembly text or as a binary dump.  The format
is that of the first line that looks like one of the two.  The patterns are
narrower than what the readers of the formats accept: fields are separated by
single spaces and numbers have no sign.
-/

/-- The formats of program text. -/
inductive Format where
  | assembly
  | dump
  | unknown
deriving DecidableEq, Inhabited

def Format.all : List Format :=
  [assembly, dump, unknown]

/-- The name of a format in structured text. -/
def Format.name : Format → String
  | assembly => "AssemblyText"
  | dump => "BinaryDump"
  | unknown => "Unknown"

/-- A nonempty run of letters, numbers and underscores. -/
def isName (text : List Char) : Bool :=
  !text.isEmpty && text.all fun c => Text.isAlphanumeric c || c == '_'

/-- Digits, a name and perhaps more digits, separated by single spaces. -/
def looksLikeAssembly (line : List Char) : Bool :=
  match Text.splitWhere (· == ' ') line with
  | [address, mnemonic] => Decimal.isDigits address && isName mnemonic
  | [address, mnemonic, operand] =>
      Decimal.isDigits address && isName mnemonic && Decimal.isDigits operand
  | _ => false

/-- A nonempty run of binary digits. -/
def isBinary (text : List Char) : Bool :=
  !text.isEmpty && text.all fun c => c == '0' || c == '1'

/-- Digits, a colon, a space and binary digits. -/
def looksLikeDump (line : List Char) : Bool :=
  match cutAtColon line with
  | some (address, bits) => Decimal.isDigits address && isBinary bits
  | none => false

/-- The format that one line looks like, if any. -/
def formatOfLine? (line : List Char) : Option Format :=
  if looksLikeAssembly line then some .assembly
  else if looksLikeDump line then some .dump
  else none

/-- The format of a program: that of its first recognisable line. -/
def detect (source : List Char) : Format :=
  ((meaningfulLines source).findSome? fun line => formatOfLine? line.text).getD .unknown

end Program
end SmallScale
