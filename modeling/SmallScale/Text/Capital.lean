namespace SmallScale
namespace Text

/-!
# Capital forms

Mnemonics are recognised whatever the case of their letters, under the full
case rules of Unicode.  Those rules turn a few characters outside the basic
Latin alphabet into basic Latin capitals, sometimes more than one.  Exactly
these are listed here.  A character whose capital form contains anything else
stands for itself: it can never become part of a word of basic Latin capitals,
so comparing with such a word gives the answer of the full rules.
-/

/-- The capital form of a character as far as it is spelt with basic Latin
letters. -/
def capital (c : Char) : List Char :=
  match c with
  | '\u00df' => ['S', 'S']
  | '\u0131' => ['I']
  | '\u017f' => ['S']
  | '\ufb00' => ['F', 'F']
  | '\ufb01' => ['F', 'I']
  | '\ufb02' => ['F', 'L']
  | '\ufb03' => ['F', 'F', 'I']
  | '\ufb04' => ['F', 'F', 'L']
  | '\ufb05' => ['S', 'T']
  | '\ufb06' => ['S', 'T']
  | _ => [c.toUpper]

/-- The capital form of a text. -/
def capitals (text : List Char) : List Char :=
  text.flatMap capital

end Text
end SmallScale
