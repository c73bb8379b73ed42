import SmallScale.Json.Reader
import SmallScale.Proofs.Json.Token

namespace SmallScale
namespace Json

/-!
# Values that were written

The automaton that reads values passes over the text of a written value and is then where
it would be after that value alone, whatever is still open around it.  This is said of the
values that every library can be trusted with, and such are all the values that are written
here.
-/

/-- All numbers in the value are natural numbers of 64 bits, its strings and keys have texts,
no object repeats a key, and arrays and objects are nested so many levels deep at most. -/
inductive Plain : Nat → Json → Prop where
  | null {levels : Nat} : Plain levels null
  | bool {levels : Nat} {value : Bool} : Plain levels (bool value)
  | number {levels n : Nat} (host : n < UInt64.size) : Plain levels (ofNat n)
  | string {levels : Nat} {text : String} : Plain levels (ofString text)
  | array {levels : Nat} {items : List Json} (plainItems : ∀ item ∈ items, Plain levels item) :
      Plain (levels + 1) (array items)
  | object {levels : Nat} {members : List (String × Json)}
      (distinct : (members.map Prod.fst).Nodup)
      (plainMembers : ∀ member ∈ members, Plain levels member.2) :
      Plain (levels + 1) (ofMembers members)

/-! ## Steps of the automaton -/

section

variable {place nextPlace : Place} {stack nextStack : List OpenPart} {cs rest : List Char}
  {token : Token}

theorem walk_complete (value : Json) (cs : List Char) :
    walk (.complete value) [] cs = some (value, cs) := by
  rw [walk]

/-- One token moves the automaton as its table says. -/
theorem walk_of_transition (read : Token.next cs = some (token, rest))
    (moves : transition place stack token = some (nextPlace, nextStack)) :
    walk place stack cs = walk nextPlace nextStack rest := by
  rw [walk.eq_def]
  split
  · cases token <;> cases moves
  · split
    · rename_i ends
      rw [read] at ends
      cases ends
    · rename_i again
      rw [read] at again
      cases again
      rw [moves]

/-- The places where a value may start. -/
inductive StartsValue : Place → Prop where
  | value : StartsValue .value
  | firstItem : StartsValue .firstItem

/-- The places where a member may start. -/
inductive StartsMember : Place → Prop where
  | key : StartsMember .key
  | firstKey : StartsMember .firstKey

theorem transition_startsValue (starts : StartsValue place) (noEnd : token ≠ .closeArray) :
    transition place stack token = startValue stack token := by
  cases starts with
  | value => rfl
  | firstItem =>
      rw [transition]
      exact fun _ _ isEnd => noEnd isEnd

theorem transition_startsMember (starts : StartsMember place) (noEnd : token ≠ .closeObject) :
    transition place stack token = startMember stack token := by
  cases starts with
  | key => rfl
  | firstKey =>
      rw [transition]
      exact fun _ _ isEnd => noEnd isEnd

end

/-! ## Written values -/

/-- Where a value may start, its text leads to the place behind the value. -/
def ReadThrough (value : Json) : Prop :=
  ∀ (place : Place) (stack : List OpenPart) (rest : List Char), StartsValue place →
    EndsNumber rest →
    walk place stack (value.writeChars ++ rest) = walk (.complete value) stack rest

theorem readThrough_of_next {value : Json}
    (read : ∀ rest, EndsNumber rest →
      Token.next (value.writeChars ++ rest) = some (.scalar value, rest)) :
    ReadThrough value := by
  intro place stack rest starts ends
  apply walk_of_transition (read rest ends)
  rw [transition_startsValue starts (by simp)]
  rfl

/-- The marks behind a value are no part of a number. -/
theorem endsNumber_of_mark {mark : Char} (isMark : mark ∈ [',', ']', '\x7d'])
    (rest : List Char) : EndsNumber (mark :: rest) := by
  have outside : ∀ c ∈ [',', ']', '\x7d'],
      Decimal.isDigit c = false ∧ c ≠ '.' ∧ c ≠ 'e' ∧ c ≠ 'E' := by
    simp [Decimal.isDigit]
  intro first isFirst
  cases isFirst
  exact outside mark isMark

section

variable {place : Place} {stack : List OpenPart}

/-- The items that are left of an array, behind those that were read. -/
theorem walk_writeItems (starts : StartsValue place) (rest : List Char) (read : List Json)
    {item : Json} {items : List Json} (through : ∀ each ∈ item :: items, ReadThrough each) :
    walk place (.array read :: stack) (writeItems (item :: items) ++ ']' :: rest) =
      walk (.complete (.array (read.reverse ++ item :: items))) stack rest := by
  induction items generalizing item place read with
  | nil =>
      have itemRead : walk place (.array read :: stack) (item.writeChars ++ ']' :: rest) =
          walk (.complete item) (.array read :: stack) (']' :: rest) :=
        through item List.mem_cons_self _ _ _ starts (endsNumber_of_mark (by decide) rest)
      have closed : Token.next (']' :: rest) = some (.closeArray, rest) := rfl
      rw [writeItems, itemRead, walk_of_transition closed rfl, List.reverse_cons]
  | cons next others ih =>
      rw [List.forall_mem_cons] at through
      generalize behind : writeItems (next :: others) ++ ']' :: rest = cs
      have itemRead : walk place (.array read :: stack) (item.writeChars ++ ',' :: cs) =
          walk (.complete item) (.array read :: stack) (',' :: cs) :=
        through.1 _ _ _ starts (endsNumber_of_mark (by decide) cs)
      have separated : Token.next (',' :: cs) = some (.comma, cs) := rfl
      rw [writeItems, List.append_assoc, List.cons_append, behind, itemRead,
        walk_of_transition separated rfl, ← behind, ih .value (item :: read) through.2,
        List.reverse_cons, List.append_assoc]
      rfl

/-- A key and its colon lead to where the value of the member starts. -/
theorem walk_writeKey (starts : StartsMember place) (read : List (Option String × Json))
    (key : String) (cs : List Char) :
    walk place (.object read :: stack) (writeString (some key) ++ ':' :: cs) =
      walk .value (.member read (some key) :: stack) cs := by
  have keyRead := next_writeString key (':' :: cs)
  have colon : Token.next (':' :: cs) = some (.colon, cs) := rfl
  have keyMoves : transition place (.object read :: stack) (.scalar (ofString key)) =
      some (.colon (some key), .object read :: stack) := by
    rw [transition_startsMember starts (by simp)]
    rfl
  rw [walk_of_transition keyRead keyMoves, walk_of_transition colon rfl]

/-- The members that are left of an object, behind those that were read. -/
theorem walk_writeMembers (starts : StartsMember place) (rest : List Char)
    (read : List (Option String × Json)) {member : String × Json} {members : List (String × Json)}
    (through : ∀ each ∈ member :: members, ReadThrough each.2) :
    walk place (.object read :: stack)
        (writeMembers ((member :: members).map fun (key, value) => (some key, value)) ++
          '\x7d' :: rest) =
      walk (.complete (.object (read.reverse ++
        (member :: members).map fun (key, value) => (some key, value)))) stack rest := by
  induction members generalizing member place read with
  | nil =>
      rcases member with ⟨key, value⟩
      have valueRead : walk .value (.member read (some key) :: stack)
          (value.writeChars ++ '\x7d' :: rest) =
          walk (.complete value) (.member read (some key) :: stack) ('\x7d' :: rest) :=
        through _ List.mem_cons_self _ _ _ .value (endsNumber_of_mark (by decide) rest)
      have closed : Token.next ('\x7d' :: rest) = some (.closeObject, rest) := rfl
      rw [List.map_singleton, writeMembers, List.append_assoc, List.cons_append,
        walk_writeKey starts, valueRead, walk_of_transition closed rfl, List.reverse_cons]
  | cons next others ih =>
      rcases member with ⟨key, value⟩
      rw [List.forall_mem_cons] at through
      generalize behind :
        writeMembers ((next :: others).map fun (key, value) => (some key, value)) ++
          '\x7d' :: rest = cs
      have valueRead : walk .value (.member read (some key) :: stack)
          (value.writeChars ++ ',' :: cs) =
          walk (.complete value) (.member read (some key) :: stack) (',' :: cs) :=
        through.1 _ _ _ .value (endsNumber_of_mark (by decide) cs)
      have separated : Token.next (',' :: cs) = some (.comma, cs) := rfl
      have written : writeMembers (((key, value) :: next :: others).map
            fun (key, value) => (some key, value)) ++ '\x7d' :: rest =
          writeString (some key) ++ ':' :: (value.writeChars ++ ',' :: cs) := by
        rw [List.map_cons, List.map_cons, writeMembers, ← behind, List.map_cons]
        simp only [List.append_assoc, List.cons_append]
      rw [written, walk_writeKey starts, valueRead, walk_of_transition separated rfl, ← behind,
        ih .key ((some key, value) :: read) through.2, List.reverse_cons, List.append_assoc]
      rfl

end

/-- The text of a plain value is passed as that value. -/
theorem Plain.readThrough {levels : Nat} {value : Json} (plain : Plain levels value) :
    ReadThrough value := by
  induction plain with
  | null => exact readThrough_of_next fun _ _ => rfl
  | @bool levels value =>
      cases value with
      | false => exact readThrough_of_next fun _ _ => rfl
      | true => exact readThrough_of_next fun _ _ => rfl
  | @number levels n host => exact readThrough_of_next fun _ => next_signedText n
  | @string levels text =>
      have read : ∀ rest, EndsNumber rest →
          Token.next ((ofString text).writeChars ++ rest) = some (.scalar (ofString text), rest) :=
        fun rest _ => next_writeString text rest
      exact readThrough_of_next read
  | @array levels items plainItems ih =>
      intro place stack rest starts ends
      have opened (cs : List Char) : Token.next ('[' :: cs) = some (.openArray, cs) := rfl
      have opens : transition place stack .openArray = some (.firstItem, .array [] :: stack) := by
        rw [transition_startsValue starts (by simp)]
        rfl
      have closed : Token.next (']' :: rest) = some (.closeArray, rest) := rfl
      rw [writeChars, List.append_assoc, List.cons_append, walk_of_transition (opened _) opens]
      cases items with
      | nil => exact walk_of_transition closed rfl
      | cons item items => exact walk_writeItems .firstItem rest [] ih
  | @object levels members distinct plainMembers ih =>
      intro place stack rest starts ends
      have opened (cs : List Char) : Token.next ('\x7b' :: cs) = some (.openObject, cs) := rfl
      have opens : transition place stack .openObject = some (.firstKey, .object [] :: stack) := by
        rw [transition_startsValue starts (by simp)]
        rfl
      have closed : Token.next ('\x7d' :: rest) = some (.closeObject, rest) := rfl
      rw [ofMembers, writeChars, List.append_assoc, List.cons_append,
        walk_of_transition (opened _) opens]
      cases members with
      | nil => exact walk_of_transition closed rfl
      | cons member members => exact walk_writeMembers .firstKey rest [] ih

/-- A plain value is read back from its text. -/
theorem Plain.readPrefix_write {levels : Nat} {value : Json} (plain : Plain levels value) :
    readPrefix value.write.toList = some (value, []) := by
  have ends : EndsNumber [] := fun _ isFirst => nomatch isFirst
  have read : walk .value [] (value.writeChars ++ []) = walk (.complete value) [] [] :=
    plain.readThrough _ _ _ .value ends
  rw [List.append_nil, walk_complete] at read
  rw [readPrefix, write, String.toList_ofList, read]

end Json
end SmallScale
