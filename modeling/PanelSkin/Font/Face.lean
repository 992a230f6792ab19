import PanelSkin.Expr.Operator

/-!
Loaded fonts: the measures of a face, the advance of each character and its glyph. A text is as
wide as the advances of its characters; its height counts one line per line feed, a trailing
one aside.
-/

namespace PanelSkin

/-- A drawn character: a bitmap of coverage, placed against the pen and the baseline. -/
structure Glyph where
  width : Nat := 0
  height : Nat := 0
  /-- Offset of the left edge from the pen. -/
  bearingX : Int := 0
  /-- Distance from the baseline up to the top edge. -/
  bearingY : Int := 0
  /-- One byte per pixel, row by row. -/
  coverage : Array UInt8 := #[]
  deriving DecidableEq, Repr, Inhabited

/-- Coverage of a pixel; nothing is covered outside the bitmap. -/
def Glyph.coverageAt (g : Glyph) (x y : Int) : UInt8 :=
  if 0 ≤ x ∧ 0 ≤ y ∧ x < g.width ∧ y < g.height then
    g.coverage.getD (y.toNat * g.width + x.toNat) 0
  else 0

structure Face where
  /-- Widest advance. -/
  totalWidth : Int
  /-- Height of a character cell. -/
  totalHeight : Int
  totalAscent : Int
  /-- Spacing between characters, already part of the advances. -/
  spaceBetween : Int
  lineHeight : Int
  /-- Horizontal advance of a character. -/
  charWidth : Char → Int
  /-- Glyph of a character, if it has one. -/
  glyph : Char → Option Glyph

namespace Face

def metric (f : Face) : FontMetric → Int
  | .totalWidth => f.totalWidth
  | .totalHeight => f.totalHeight
  | .totalAscent => f.totalAscent
  | .spaceBetween => f.spaceBetween
  | .lineHeight => f.lineHeight

/-- Width of a text on one line. -/
def widthOf (f : Face) (text : List Char) : Int := text.foldr (f.charWidth · + ·) 0

/-- Width of a text on one line. -/
def textWidth (f : Face) (text : String) : Int := f.widthOf text.toList

/-- Lines of a text that is not empty: one more than its line feeds, unless it ends in one. -/
def lineCount (text : List Char) : Nat :=
  text.count '\n' + if text.getLast? = some '\n' then 0 else 1

/-- Height of a text laid out one line per line feed. -/
def textHeight (f : Face) (text : String) : Int :=
  if text.isEmpty then 0 else f.totalHeight + ((lineCount text.toList : Int) - 1) * f.lineHeight

/-- The extent of a text in one direction. -/
def extent (f : Face) (text : String) : Extent → Int
  | .width => f.textWidth text
  | .height => f.textHeight text

end Face

end PanelSkin
