import SmallScale.Json

namespace SmallScale
namespace Json

/-!
# Tokens of structured text

A token is a bracket, a comma, a colon, or a whole value without parts.  Reading
one takes the blanks before it and leaves what follows it.  The main statement is
that what is left is shorter than what was given, which is why reading a value
ends.
-/

/-- The tokens of JSON. -/
inductive Token where
  | openArray
  | closeArray
  | openObject
  | closeObject
  | comma
  | colon
  /-- A literal, a number or a string. -/
  | scalar (value : Json)

/-- The blanks between tokens. -/
def isBlank (c : Char) : Bool :=
  c == ' ' || c == '\x09' || c == '\x0a' || c == '\x0d'

/-- A part of a string: a character as it stands, or an escaped 16-bit unit. -/
inductive StringPart where
  | plain (c : Char)
  | escapedUnit (code : Nat)

/-- The value of a hexadecimal digit. -/
def hexValue? (c : Char) : Option Nat :=
  if '0' ≤ c ∧ c ≤ '9' then some (c.toNat - 48)
  else if 'a' ≤ c ∧ c ≤ 'f' then some (c.toNat - 87)
  else if 'A' ≤ c ∧ c ≤ 'F' then some (c.toNat - 55)
  else none

/-- The unit that four hexadecimal digits spell. -/
def hexUnit? (first second third fourth : Char) : Option Nat :=
  match hexValue? first, hexValue? second, hexValue? third, hexValue? fourth with
  | some a, some b, some c, some d => some (a * 4096 + b * 256 + c * 16 + d)
  | _, _, _, _ => none

/-- The character of an escape of one letter. -/
def shortEscape? (c : Char) : Option Char :=
  if c = '\x22' ∨ c = '\\' ∨ c = '/' then some c
  else if c = 'b' then some '\x08'
  else if c = 't' then some '\x09'
  else if c = 'n' then some '\x0a'
  else if c = 'f' then some '\x0c'
  else if c = 'r' then some '\x0d'
  else none

/-- Put a part in front of those that were read after it. -/
def withPart (part : StringPart) (read : Option (List StringPart × List Char)) :
    Option (List StringPart × List Char) :=
  read.map fun (parts, rest) => (part :: parts, rest)

/-- The parts of a string behind its opening quote, and what follows its closing
quote.  Control characters must be escaped. -/
def stringParts : List Char → Option (List StringPart × List Char)
  | [] => none
  | '\x22' :: rest => some ([], rest)
  | '\\' :: 'u' :: a :: b :: c :: d :: rest =>
      match hexUnit? a b c d with
      | some code => withPart (.escapedUnit code) (stringParts rest)
      | none => none
  | '\\' :: c :: rest =>
      match shortEscape? c with
      | some meant => withPart (.plain meant) (stringParts rest)
      | none => none
  | c :: rest => if c.toNat < 0x20 then none else withPart (.plain c) (stringParts rest)

def isHighSurrogate (code : Nat) : Bool :=
  0xD800 ≤ code && code < 0xDC00

def isLowSurrogate (code : Nat) : Bool :=
  0xDC00 ≤ code && code < 0xE000

/-- The text that the parts of a string spell, unless a surrogate stands alone. -/
def spelled : List StringPart → Option (List Char)
  | [] => some []
  | .plain c :: rest => (spelled rest).map (c :: ·)
  | .escapedUnit code :: rest =>
      if isHighSurrogate code then
        match rest with
        | .escapedUnit low :: rest =>
            if isLowSurrogate low then
              (spelled rest).map
                (Char.ofNat (0x10000 + (code - 0xD800) * 0x400 + (low - 0xDC00)) :: ·)
            else none
        | _ => none
      else if isLowSurrogate code then none
      else (spelled rest).map (Char.ofNat code :: ·)

/-- The string behind an opening quote. -/
def readString (cs : List Char) : Option (Json × List Char) :=
  (stringParts cs).map fun (parts, rest) => (string ((spelled parts).map String.ofList), rest)

/-- A nonempty run of digits at the start of a text. -/
def digitRun (cs : List Char) : Option (List Char × List Char) :=
  if (cs.takeWhile Decimal.isDigit).isEmpty then none
  else some (cs.takeWhile Decimal.isDigit, cs.dropWhile Decimal.isDigit)

/-- Pass over the digits after a point, if there is one. -/
def passFraction : List Char → Option (List Char)
  | '.' :: rest => (digitRun rest).map Prod.snd
  | cs => some cs

/-- Pass over an exponent, if there is one. -/
def passExponent : List Char → Option (List Char)
  | c :: rest =>
      if c = 'e' ∨ c = 'E' then
        match rest with
        | sign :: digits =>
            if sign = '+' ∨ sign = '-' then (digitRun digits).map Prod.snd
            else (digitRun rest).map Prod.snd
        | [] => none
      else some (c :: rest)
  | [] => some []

/-- The number whose digits start here.  Only zero starts with a zero. -/
def readMagnitude (negative : Bool) (cs : List Char) : Option (Json × List Char) :=
  match digitRun cs with
  | none => none
  | some (whole, behind) =>
      if whole.head? = some '0' ∧ whole ≠ ['0'] then none
      else
        match (passFraction behind).bind passExponent with
        | none => none
        | some rest =>
            let value := Decimal.valueOf whole
            if rest.length = behind.length ∧ (negative = false ∨ value ≠ 0) then
              some (integer (if negative then -(value : Int) else value), rest)
            else
              let sign := if negative then ['-'] else []
              some (decimal (String.ofList (sign ++ cs.take (cs.length - rest.length))), rest)

/-- The number that starts here. -/
def readNumber : List Char → Option (Json × List Char)
  | '-' :: rest => readMagnitude true rest
  | cs => readMagnitude false cs

/-- The token that starts with the first character. -/
def Token.starting : List Char → Option (Token × List Char)
  | '[' :: rest => some (.openArray, rest)
  | ']' :: rest => some (.closeArray, rest)
  | '\x7b' :: rest => some (.openObject, rest)
  | '\x7d' :: rest => some (.closeObject, rest)
  | ',' :: rest => some (.comma, rest)
  | ':' :: rest => some (.colon, rest)
  | '\x22' :: rest => (readString rest).map fun (value, rest) => (.scalar value, rest)
  | 'n' :: 'u' :: 'l' :: 'l' :: rest => some (.scalar null, rest)
  | 't' :: 'r' :: 'u' :: 'e' :: rest => some (.scalar (bool true), rest)
  | 'f' :: 'a' :: 'l' :: 's' :: 'e' :: rest => some (.scalar (bool false), rest)
  | cs => (readNumber cs).map fun (value, rest) => (.scalar value, rest)

/-- The next token after any blanks. -/
def Token.next (cs : List Char) : Option (Token × List Char) :=
  Token.starting (cs.dropWhile isBlank)

/-- Dropping from the front never lengthens a text. -/
theorem length_dropWhile_le (p : Char → Bool) (cs : List Char) :
    (cs.dropWhile p).length ≤ cs.length := by
  induction cs with
  | nil => exact Nat.le_refl _
  | cons c rest ih =>
      rw [List.dropWhile_cons]
      split
      · exact Nat.le_succ_of_le ih
      · exact Nat.le_refl _

theorem stringParts_shorter {cs rest : List Char} {parts : List StringPart}
    (read : stringParts cs = some (parts, rest)) : rest.length < cs.length := by
  fun_induction stringParts cs generalizing parts with
  | case1 => cases read
  | case2 => cases read; exact Nat.lt_succ_self _
  | case3 a b c d behind code unit ih =>
      obtain ⟨⟨inner, left⟩, later, same⟩ := Option.map_eq_some_iff.mp read
      cases same
      have shorter := ih later
      simp only [List.length_cons]
      omega
  | case4 => cases read
  | case5 c behind _ meant short ih =>
      obtain ⟨⟨inner, left⟩, later, same⟩ := Option.map_eq_some_iff.mp read
      cases same
      have shorter := ih later
      simp only [List.length_cons]
      omega
  | case6 => cases read
  | case7 => cases read
  | case8 c behind _ _ _ plain ih =>
      obtain ⟨⟨inner, left⟩, later, same⟩ := Option.map_eq_some_iff.mp read
      cases same
      have shorter := ih later
      simp only [List.length_cons]
      omega

theorem digitRun_shorter {cs digits rest : List Char}
    (read : digitRun cs = some (digits, rest)) : rest.length < cs.length := by
  unfold digitRun at read
  split at read
  · cases read
  · rename_i some_digits
    cases read
    cases cs with
    | nil => exact absurd rfl some_digits
    | cons c behind =>
        rw [List.takeWhile_cons] at some_digits
        split at some_digits
        · rename_i digit
          rw [List.dropWhile_cons, if_pos digit]
          exact Nat.lt_succ_of_le (length_dropWhile_le _ _)
        · exact absurd rfl some_digits

theorem passFraction_le {cs rest : List Char} (passed : passFraction cs = some rest) :
    rest.length ≤ cs.length := by
  unfold passFraction at passed
  split at passed
  · obtain ⟨⟨digits, left⟩, read, same⟩ := Option.map_eq_some_iff.mp passed
    cases same
    exact Nat.le_succ_of_le (Nat.le_of_lt (digitRun_shorter read))
  · cases passed
    exact Nat.le_refl _

theorem passExponent_le {cs rest : List Char} (passed : passExponent cs = some rest) :
    rest.length ≤ cs.length := by
  unfold passExponent at passed
  split at passed
  · rename_i c behind
    split at passed
    · split at passed
      · rename_i sign digits
        split at passed
        · obtain ⟨⟨run, left⟩, read, same⟩ := Option.map_eq_some_iff.mp passed
          cases same
          have shorter := digitRun_shorter read
          simp only [List.length_cons]
          omega
        · obtain ⟨⟨run, left⟩, read, same⟩ := Option.map_eq_some_iff.mp passed
          cases same
          have shorter := digitRun_shorter read
          simp only [List.length_cons] at shorter ⊢
          omega
      · cases passed
    · cases passed
      exact Nat.le_refl _
  · cases passed
    exact Nat.le_refl _

theorem readMagnitude_shorter {negative : Bool} {cs rest : List Char} {value : Json}
    (read : readMagnitude negative cs = some (value, rest)) : rest.length < cs.length := by
  unfold readMagnitude at read
  split at read
  · cases read
  · rename_i whole behind run
    have shorter := digitRun_shorter run
    split at read
    · cases read
    · split at read
      · cases read
      · rename_i left passed
        obtain ⟨middle, first, second⟩ := Option.bind_eq_some_iff.mp passed
        have firstLe := passFraction_le first
        have secondLe := passExponent_le second
        simp only at read
        split at read
        · cases read
          omega
        · cases read
          omega

theorem readNumber_shorter {cs rest : List Char} {value : Json}
    (read : readNumber cs = some (value, rest)) : rest.length < cs.length := by
  unfold readNumber at read
  split at read
  · exact Nat.lt_succ_of_lt (readMagnitude_shorter read)
  · exact readMagnitude_shorter read

theorem Token.starting_shorter {cs rest : List Char} {token : Token}
    (read : Token.starting cs = some (token, rest)) : rest.length < cs.length := by
  unfold Token.starting at read
  split at read
  case h_7 =>
    obtain ⟨⟨value, left⟩, inner, same⟩ := Option.map_eq_some_iff.mp read
    cases same
    obtain ⟨⟨parts, behind⟩, found, alike⟩ := Option.map_eq_some_iff.mp inner
    cases alike
    exact Nat.lt_succ_of_lt (stringParts_shorter found)
  case h_11 =>
    obtain ⟨⟨value, left⟩, inner, same⟩ := Option.map_eq_some_iff.mp read
    cases same
    exact readNumber_shorter inner
  all_goals
    cases read
    simp only [List.length_cons]
    omega

/-- What follows a token is shorter than what was given. -/
theorem Token.next_shorter {cs rest : List Char} {token : Token}
    (read : Token.next cs = some (token, rest)) : rest.length < cs.length :=
  Nat.lt_of_lt_of_le (Token.starting_shorter read) (length_dropWhile_le _ _)

end Json
end SmallScale
