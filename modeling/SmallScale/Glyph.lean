namespace SmallScale

/-!
# Glyph styles

A word is drawn with two glyphs, one for set and one for clear bits.  The four
styles form a cycle through which a front panel steps.
-/

/-- The alphabets in which words are drawn. -/
inductive GlyphStyle where
  | highContrast
  /-- The style closest to the picture on the storage tube. -/
  | fancy
  /-- The style of printed listings, and the one a panel starts with. -/
  | classic
  | binary
deriving DecidableEq, Inhabited

namespace GlyphStyle

/-- All styles, in the order of the cycle. -/
def all : List GlyphStyle :=
  [highContrast, fancy, classic, binary]

/-- The name of a style in structured text. -/
def name : GlyphStyle → String
  | highContrast => "HighContrast"
  | fancy => "Fancy"
  | classic => "Classic"
  | binary => "Binary"

def set : GlyphStyle → Char
  | highContrast => '#'
  | fancy => '\u2212'
  | classic => '_'
  | binary => '1'

def clear : GlyphStyle → Char
  | highContrast => '.'
  | fancy => '\u00b7'
  | classic => '.'
  | binary => '0'

def glyph (style : GlyphStyle) (bit : Bool) : Char :=
  if bit then style.set else style.clear

def next : GlyphStyle → GlyphStyle
  | highContrast => fancy
  | fancy => classic
  | classic => binary
  | binary => highContrast

/-- The style that a hosting page asks for.  Names it does not know mean the
classic style. -/
def requested (wish : String) : GlyphStyle :=
  match wish with
  | "#" => highContrast
  | "high-contrast" => highContrast
  | "fancy" => fancy
  | "binary" => binary
  | _ => classic

/-- Set and clear bits look different in every style. -/
theorem glyph_injective (style : GlyphStyle) {first second : Bool}
    (same : style.glyph first = style.glyph second) : first = second := by
  cases style <;> cases first <;> cases second <;> revert same <;> decide

end GlyphStyle
end SmallScale
