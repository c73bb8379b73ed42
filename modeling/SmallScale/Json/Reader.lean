import SmallScale.Json.Token

namespace SmallScale
namespace Json

/-!
# Reading structured text

A value is read from left to right by an automaton with a stack of the arrays
and objects that are still open.  `transition` is its table: what a token does
at a place.  The automaton stops as soon as the value is complete and leaves the
rest of the text untouched.
-/

/-- An array or object that is still open, the latest parts first. -/
inductive OpenPart where
  | array (items : List Json)
  | object (members : List (Option String × Json))
  /-- An object whose last key waits for its value. -/
  | member (members : List (Option String × Json)) (key : Option String)

/-- What may come next. -/
inductive Place where
  | value
  /-- An item, or the end of an array that has none. -/
  | firstItem
  /-- A key, or the end of an object that has none. -/
  | firstKey
  | key
  | colon (key : Option String)
  /-- A value is complete. -/
  | complete (value : Json)

/-- The effect of a token that must start a value. -/
def startValue (stack : List OpenPart) : Token → Option (Place × List OpenPart)
  | .openArray => some (.firstItem, .array [] :: stack)
  | .openObject => some (.firstKey, .object [] :: stack)
  | .scalar value => some (.complete value, stack)
  | _ => none

/-- The effect of a token that must be a key. -/
def startMember (stack : List OpenPart) : Token → Option (Place × List OpenPart)
  | .scalar (.string key) => some (.colon key, stack)
  | _ => none

/-- The table of the automaton. -/
def transition : Place → List OpenPart → Token → Option (Place × List OpenPart)
  | .value, stack, token => startValue stack token
  | .firstItem, .array [] :: stack, .closeArray => some (.complete (.array []), stack)
  | .firstItem, stack, token => startValue stack token
  | .firstKey, .object [] :: stack, .closeObject => some (.complete (.object []), stack)
  | .firstKey, stack, token => startMember stack token
  | .key, stack, token => startMember stack token
  | .colon key, .object members :: stack, .colon => some (.value, .member members key :: stack)
  | .complete value, .array items :: stack, .comma =>
      some (.value, .array (value :: items) :: stack)
  | .complete value, .array items :: stack, .closeArray =>
      some (.complete (.array (value :: items).reverse), stack)
  | .complete value, .member members key :: stack, .comma =>
      some (.key, .object ((key, value) :: members) :: stack)
  | .complete value, .member members key :: stack, .closeObject =>
      some (.complete (.object ((key, value) :: members).reverse), stack)
  | _, _, _ => none

/-- Run the automaton until a value is complete and nothing is open. -/
def walk (place : Place) (stack : List OpenPart) (cs : List Char) : Option (Json × List Char) :=
  match place, stack with
  | .complete value, [] => some (value, cs)
  | place, stack =>
      match _read : Token.next cs with
      | none => none
      | some (token, rest) =>
          match transition place stack token with
          | none => none
          | some (nextPlace, nextStack) => walk nextPlace nextStack rest
termination_by cs.length
decreasing_by exact Token.next_shorter _read

/-- The value at the start of a text, and what follows it. -/
def readPrefix (cs : List Char) : Option (Json × List Char) :=
  walk .value [] cs

end Json
end SmallScale
