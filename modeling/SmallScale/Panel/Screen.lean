namespace SmallScale

/-!
# Screens

A screen is a list of rows from top to bottom and a row a list of cells from
left to right.  Every cell shows one character in one look.

Frames are laid out and drawn by a toolkit, which is a parameter of all that draws.
The one built in fills the rows of a box to the full width: what is too long is cut
at the right border and what is too short is filled up.
-/

/-- The colours of the screen. -/
inductive Colour where
  | reset
  | red
  | green
  | yellow
  | cyan
  | darkGray
  | magenta
  | gray
deriving DecidableEq, Inhabited

/-- How a cell stands out. -/
inductive Emphasis where
  | plain
  | bold
  | reversed
deriving DecidableEq, Inhabited

/-- Colour and emphasis of a cell. -/
structure Look where
  colour : Colour
  emphasis : Emphasis
deriving DecidableEq, Inhabited

/-- The look of cells that nothing was drawn in. -/
def Look.default : Look :=
  ⟨.reset, .plain⟩

def Look.coloured (colour : Colour) : Look :=
  ⟨colour, .plain⟩

def Look.bold (colour : Colour) : Look :=
  ⟨colour, .bold⟩

/-- A character on the screen. -/
structure Cell where
  glyph : Char
  look : Look
deriving DecidableEq, Inhabited

/-- Cells from left to right. -/
abbrev ScreenRow :=
  List Cell

namespace ScreenRow

/-- A text in one look. -/
def ofText (look : Look) (text : String) : ScreenRow :=
  text.toList.map fun c => ⟨c, look⟩

/-- The row cut or filled up to a width. -/
def fit (width : Nat) (filler : Cell) (row : ScreenRow) : ScreenRow :=
  row.take width ++ List.replicate (width - row.length) filler

def text (row : ScreenRow) : String :=
  String.ofList (row.map Cell.glyph)

/-- Put a cell in front of the runs of equal looks that start at its column. -/
def extendRuns (column : Nat) (look : Look) (runs : List (Nat × Nat × Look)) :
    List (Nat × Nat × Look) :=
  match runs with
  | (start, length, next) :: rest =>
      if next = look then (column, length + 1, look) :: rest
      else (column, 1, look) :: (start, length, next) :: rest
  | [] => [(column, 1, look)]

/-- The maximal runs of cells of one look, each with its first column and its
length. -/
def runsFrom (column : Nat) : ScreenRow → List (Nat × Nat × Look)
  | [] => []
  | cell :: rest => extendRuns column cell.look (runsFrom (column + 1) rest)

/-- The maximal runs of cells that do not look as if nothing was drawn there. -/
def styledRuns (row : ScreenRow) : List (Nat × Nat × Look) :=
  (runsFrom 0 row).filter fun (_, _, look) => look ≠ Look.default

end ScreenRow

/-- A bordered box of text. -/
structure Box where
  /-- The look of the border and the title. -/
  border : Look
  /-- The look of cells inside that nothing is written in. -/
  inside : Look
  title : String
  lines : List ScreenRow
  /-- The number of lines above the first one in the box. -/
  scroll : Nat

/-- How many rows a part of a frame asks for. -/
inductive Extent where
  | exactly (rows : Nat)
  | atLeast (rows : Nat)
deriving DecidableEq

/-- What lays out frames and draws boxes. -/
structure Toolkit where
  /-- Divide a height among parts below each other. -/
  split : List Extent → Nat → List Nat
  /-- The rows of a box on a rectangle of this width and height. -/
  paragraph : Box → Nat → Nat → List ScreenRow

/-! ## The toolkit built in -/

namespace Box

/-- A cell of the border. -/
def edge (box : Box) (glyph : Char) : Cell :=
  ⟨glyph, box.border⟩

def top (box : Box) (width : Nat) : ScreenRow :=
  box.edge '┌' ::
    ScreenRow.fit (width - 2) (box.edge '─') (ScreenRow.ofText box.border box.title) ++
    [box.edge '┐']

/-- A line between the borders at the sides. -/
def between (box : Box) (width : Nat) (line : ScreenRow) : ScreenRow :=
  box.edge '│' :: ScreenRow.fit (width - 2) ⟨' ', box.inside⟩ line ++ [box.edge '│']

def bottom (box : Box) (width : Nat) : ScreenRow :=
  box.edge '└' :: List.replicate (width - 2) (box.edge '─') ++ [box.edge '┘']

/-- The box on a rectangle of the screen. -/
def draw (box : Box) (width height : Nat) : List ScreenRow :=
  let visible := (box.lines.drop box.scroll).take (height - 2)
  box.top width ::
    (visible ++ List.replicate (height - 2 - visible.length) []).map (box.between width) ++
    [box.bottom width]

end Box

/-- The rows that a part needs. -/
def Extent.least : Extent → Nat
  | .exactly rows => rows
  | .atLeast rows => rows

/-- The rows of a part when so many are left over. -/
def Extent.grown (spare : Nat) : Extent → Nat
  | .exactly rows => rows
  | .atLeast rows => rows + spare

/-- The rows that all parts need together. -/
def Extent.total (extents : List Extent) : Nat :=
  extents.foldl (fun rows extent => rows + extent.least) 0

def Toolkit.builtIn : Toolkit where
  split extents height := extents.map (Extent.grown (height - Extent.total extents))
  paragraph := Box.draw

end SmallScale
