import SmallScale.Json.Reader

namespace SmallScale
namespace Json

/-!
# Shapes of values

Records are read from objects or from arrays.  An object may hold further
members and leave out optional ones, but must not repeat a member that is looked
for.  An array gives the parts in their declared order, and may end early before
optional parts.  Names of an enumeration are strings; an object with the name as
its only key and null behind it does as well.
-/

/-- A natural number below a bound. -/
def natBelow? (bound : Nat) : Json → Option Nat
  | integer value => if 0 ≤ value ∧ value < bound then some value.toNat else none
  | _ => none

def nat64? : Json → Option Nat :=
  natBelow? UInt64.size

def nat32? : Json → Option Nat :=
  natBelow? UInt32.size

/-- A string that has a text. -/
def text? : Json → Option String
  | string text => text
  | _ => none

/-- All items of an array, each read in the same way. -/
def items? {α : Type} (item? : Json → Option α) : Json → Option (List α)
  | array items => items.mapM item?
  | _ => none

/-- A value that may be null. -/
def nullable? {α : Type} (value? : Json → Option α) : Json → Option (Option α)
  | null => some none
  | value => (value? value).map some

/-- The one of some choices that is named. -/
def choice? {α : Type} (choices : List α) (nameOf : α → String) : Json → Option α
  | string (some name) => choices.find? fun choice => nameOf choice == name
  | object [(some name, null)] => choices.find? fun choice => nameOf choice == name
  | _ => none

/-- The member of a name: nothing if it is repeated, and nothing inside if it is
left out. -/
def member? (members : List (Option String × Json)) (name : String) : Option (Option Json) :=
  match members.filter fun (key, _) => key == some name with
  | [] => some none
  | [(_, value)] => some (some value)
  | _ => none

/-- The parts of a record with these names in their declared order; parts that
are left out are marked. -/
def parts? (names : List String) : Json → Option (List (Option Json))
  | object members =>
      if members.all fun (key, _) => key.isSome then names.mapM (member? members) else none
  | array items =>
      if items.length ≤ names.length then
        some (items.map some ++ List.replicate (names.length - items.length) none)
      else none
  | _ => none

/-- A part that stands for a fixed value when it is left out. -/
def orDefault? {α : Type} (value? : Json → Option α) (fallback : α) : Option Json → Option α
  | some value => value? value
  | none => some fallback

/-- The value is an object, whose optional parts may be left out by name. -/
def isObject : Json → Bool
  | object _ => true
  | _ => false

end Json
end SmallScale
