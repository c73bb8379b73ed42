namespace SmallScale
namespace Text

/-!
# Blank characters and pieces of text

Program text is read as lists of characters.  This module says which
characters are blank, how blanks are trimmed from both ends of a text, and how
a text is cut into pieces.  Cutting is structural, so every piece function
below can be reasoned about by induction on the text.
-/

/-- The characters with the Unicode property White_Space. -/
def isBlank (c : Char) : Bool :=
  let n := c.toNat
  (9 ≤ n && n ≤ 13) || n == 0x20 || n == 0x85 || n == 0xA0 || n == 0x1680 ||
    (0x2000 ≤ n && n ≤ 0x200A) || n == 0x2028 || n == 0x2029 || n == 0x202F ||
    n == 0x205F || n == 0x3000

/-- Every blank of the basic character classes is blank here. -/
theorem isBlank_of_isWhitespace {c : Char} (white : c.isWhitespace = true) :
    isBlank c = true := by
  simp only [Char.isWhitespace, Bool.or_eq_true, decide_eq_true_eq] at white
  rcases white with ((white | white) | white) | white <;> subst white <;> decide

def trimStart (text : List Char) : List Char :=
  text.dropWhile isBlank

/-- The text without the blanks at either end. -/
def trim (text : List Char) : List Char :=
  (trimStart (trimStart text).reverse).reverse

/-- Put a character in front of the first piece. -/
def extendFirst (c : Char) : List (List Char) → List (List Char)
  | [] => [[c]]
  | first :: others => (c :: first) :: others

/-- Cut a text at every character that satisfies `cut`.  The cut characters
are dropped; between two neighbouring ones lies an empty piece. -/
def splitWhere (cut : Char → Bool) : List Char → List (List Char)
  | [] => [[]]
  | c :: rest =>
      if cut c then [] :: splitWhere cut rest else extendFirst c (splitWhere cut rest)

/-- The maximal runs of characters that are not blank. -/
def words (text : List Char) : List (List Char) :=
  (splitWhere isBlank text).filter fun piece => !piece.isEmpty

/-- Cutting always leaves at least one piece. -/
theorem splitWhere_ne_nil (cut : Char → Bool) (text : List Char) :
    splitWhere cut text ≠ [] := by
  induction text with
  | nil => simp [splitWhere]
  | cons c rest ih =>
      unfold splitWhere
      split
      · simp
      · cases pieces : splitWhere cut rest <;> simp [extendFirst]

end Text
end SmallScale
