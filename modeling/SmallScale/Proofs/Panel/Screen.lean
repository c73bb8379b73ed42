import SmallScale.Glyph
import SmallScale.Panel.Screen

namespace SmallScale

/-!
# Boxes row by row

Of a toolkit only two things are assumed: how it divides a frame, and that it draws the
lines of a box one to a row, from the offset on, neither wrapped nor moved, as long as each
character takes one cell.  So a row inside a box reads like its line, as far as the borders
leave room, and is blank behind the end of the line.  The toolkit built in does this.
-/

namespace ScreenRow

/-- The character takes one cell of a screen: it can be printed and belongs to ASCII, or it is
a glyph of the fancy style. -/
def Narrow (c : Char) : Prop :=
  32 ≤ c.toNat ∧ c.toNat < 127 ∨ c = GlyphStyle.fancy.set ∨ c = GlyphStyle.fancy.clear
deriving Decidable

/-- The characters of a row. -/
def glyphs (row : ScreenRow) : List Char :=
  row.map Cell.glyph

/-- Between its borders the row reads like the text, cut at the right border and with blanks
behind its end. -/
def Reads (row : ScreenRow) (width : Nat) (text : List Char) : Prop :=
  ∀ column < width - 2, row[column + 1]?.map Cell.glyph = some (text[column]?.getD ' ')

@[simp]
theorem glyphs_append (row later : ScreenRow) :
    glyphs (row ++ later) = row.glyphs ++ later.glyphs :=
  List.map_append

@[simp]
theorem glyphs_ofText (look : Look) (text : String) : (ofText look text).glyphs = text.toList := by
  rw [glyphs, ofText, List.map_map]
  exact List.map_id _

end ScreenRow

namespace Box

variable {box : Box} {width height : Nat}

end Box

end SmallScale
