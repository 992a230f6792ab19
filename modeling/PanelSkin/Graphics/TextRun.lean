import PanelSkin.Font.Face
import PanelSkin.Graphics.Color
import PanelSkin.Graphics.Rect

/-!
Text on one line. The pen starts left of the text's position when leading columns are skipped;
characters that end left of the position are passed over, and the line ends with the pen right
of the last column. What a character paints is cut to the columns between the two.
-/

namespace PanelSkin

structure Dot where
  x : Int
  y : Int
  color : Color
  deriving DecidableEq, Repr

structure TextRun where
  x : Int
  y : Int
  /-- Last column that may be painted. -/
  maxX : Int
  text : String
  face : Face
  color : Color
  background : Color := .transparent
  /-- Columns cut off at the left. -/
  skip : Int := 0

namespace TextRun

/-- Coverage from which on a pixel is painted. -/
def coverageThreshold : UInt8 := 128

/-- The characters that show, each with its pen position, and the pen after the last one. -/
def layout (t : TextRun) : Int → List Char → List (Int × Char) × Int
  | pen, [] => ([], pen)
  | pen, c :: rest =>
    if t.maxX < pen then ([], pen)
    else
      let next := pen + t.face.charWidth c
      let (placed, final) := t.layout next rest
      if next ≤ t.x then (placed, final) else ((pen, c) :: placed, final)

def placed (t : TextRun) : List (Int × Char) × Int := t.layout (t.x - t.skip) t.text.toList

def width (t : TextRun) : Int := max 0 (min t.placed.2 (t.maxX + 1) - t.x)

/-- The background of a character, column by column. -/
def backgroundDots (t : TextRun) (pen advance : Int) : List Dot :=
  if t.background.isTransparent then []
  else
    (span (max pen t.x) (min (pen + advance) (t.maxX + 1) - 1)).flatMap fun x =>
      (span t.y (t.y + t.face.totalHeight - 1)).map fun y => ⟨x, y, t.background⟩

/-- The covered pixels of a character's glyph, row by row. -/
def glyphDots (t : TextRun) (pen : Int) (g : Glyph) : List Dot :=
  (List.range g.height).flatMap fun (row : Nat) => (List.range g.width).filterMap fun (column : Nat) =>
    let x := pen + g.bearingX + column
    if t.x ≤ x ∧ x ≤ t.maxX ∧ coverageThreshold ≤ g.coverageAt column row then
      some ⟨x, t.y + t.face.totalAscent - g.bearingY + row, t.color⟩
    else none

/-- What one character paints: its background, then its glyph. -/
def charDots (t : TextRun) (pen : Int) (c : Char) : List Dot :=
  t.backgroundDots pen (t.face.charWidth c) ++ ((t.face.glyph c).map (t.glyphDots pen)).getD []

/-- Everything the text paints, in order. -/
def dots (t : TextRun) : List Dot := t.placed.1.flatMap fun (pen, c) => t.charDots pen c

end TextRun

end PanelSkin
