import SmallScale.Glyph
import SmallScale.Text.Blank
import SmallScale.Text.Decimal
import SmallScale.Word.Reading

namespace SmallScale
namespace Word

/-!
# Words as text

A word is drawn glyph by glyph, bit 0 first.  Drawn with binary digits it can
be read back.  The reader also takes blanks around the digits and the mark `0b`
in front of them.
-/

/-- The word in the glyphs of a style. -/
def render (w : Word) (style : GlyphStyle) : String :=
  String.ofList (w.bits.map style.glyph)

/-- The word in binary digits, the form that is read back. -/
def toDigits (w : Word) : String :=
  w.render .binary

/-- The word in the glyphs of printed listings. -/
def toClassic (w : Word) : String :=
  w.render .classic

/-- The bit that a binary digit stands for. -/
def bitOfDigit (c : Char) : Except BitError Bool :=
  if c = '0' then .ok false else if c = '1' then .ok true else .error (.invalidCharacter c)

/-- The bits of a run of binary digits, or the first character that is none. -/
def bitsOfDigits : List Char → Except BitError (List Bool)
  | [] => .ok []
  | c :: rest =>
      match bitOfDigit c with
      | .error e => .error e
      | .ok bit => (bitsOfDigits rest).map (bit :: ·)

/-- The text after the mark `0b`, if it has one. -/
def withoutMark : List Char → List Char
  | '0' :: 'b' :: rest => rest
  | text => text

/-- Read a word from characters. -/
def ofChars (text : List Char) : Except BitError Word :=
  (bitsOfDigits (withoutMark (Text.trim text))).map Word.mk

/-- Read a word from text. -/
def ofText (text : String) : Except BitError Word :=
  ofChars text.toList

/-- The word with both its readings, for people looking for faults. -/
def inspect (w : Word) : String :=
  "BitWord(" ++ w.toDigits ++ " = " ++ Decimal.signedText w.signed ++ ")"

end Word
end SmallScale
