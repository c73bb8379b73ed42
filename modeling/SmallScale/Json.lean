import SmallScale.Text.Decimal

namespace SmallScale

/-!
# Structured text: values and how they are written

Models, stores and snapshots are exchanged as JSON.  A value keeps what a reader
of it may have to refuse later: members of an object stay in order and may
repeat a key, a number that is not plainly an integer is kept as written, and a
string whose escapes spell no text is kept as such.  Writing is compact.
-/

/-- A JSON value.  A string or key without a text is one whose escapes contain
an unpaired surrogate. -/
inductive Json where
  | null
  | bool (value : Bool)
  | integer (value : Int)
  /-- A number with a point or an exponent, or a negated zero. -/
  | decimal (written : String)
  | string (text : Option String)
  | array (items : List Json)
  | object (members : List (Option String × Json))

namespace Json

instance : Inhabited Json :=
  ⟨null⟩

def ofString (text : String) : Json :=
  string (some text)

def ofNat (n : Nat) : Json :=
  integer n

def ofMembers (members : List (String × Json)) : Json :=
  object (members.map fun (key, value) => (some key, value))

/-- A hexadecimal digit. -/
def hexDigit (n : Nat) : Char :=
  if n < 10 then Char.ofNat (48 + n) else Char.ofNat (87 + n)

/-- A character inside a written string. -/
def escape (c : Char) : List Char :=
  if c = '\x22' then ['\\', '\x22']
  else if c = '\\' then ['\\', '\\']
  else if c = '\x08' then ['\\', 'b']
  else if c = '\x09' then ['\\', 't']
  else if c = '\x0a' then ['\\', 'n']
  else if c = '\x0c' then ['\\', 'f']
  else if c = '\x0d' then ['\\', 'r']
  else if c.toNat < 0x20 then
    ['\\', 'u', '0', '0', hexDigit (c.toNat / 16), hexDigit (c.toNat % 16)]
  else [c]

/-- A written string.  One without a text is written as an unpaired surrogate. -/
def writeString : Option String → List Char
  | some text => '\x22' :: text.toList.flatMap escape ++ ['\x22']
  | none => "\x22\\ud800\x22".toList

mutual

def writeChars : Json → List Char
  | null => "null".toList
  | bool value => if value then "true".toList else "false".toList
  | integer value => (Decimal.signedText value).toList
  | decimal written => written.toList
  | string text => writeString text
  | array items => '[' :: writeItems items ++ [']']
  | object members => '\x7b' :: writeMembers members ++ ['\x7d']

/-- The items of an array, separated by commas. -/
def writeItems : List Json → List Char
  | [] => []
  | [item] => writeChars item
  | item :: next :: rest => writeChars item ++ ',' :: writeItems (next :: rest)

/-- The members of an object, separated by commas. -/
def writeMembers : List (Option String × Json) → List Char
  | [] => []
  | [(key, value)] => writeString key ++ ':' :: writeChars value
  | (key, value) :: next :: rest =>
      writeString key ++ ':' :: writeChars value ++ ',' :: writeMembers (next :: rest)

end

def write (value : Json) : String :=
  String.ofList value.writeChars

end Json
end SmallScale
