import PanelSkin.Font.Face
import PanelSkin.Font.Spec

/-!
Outline fonts: shapes in font units, scaled to a size in pixels per em. Every measure is one
product in 32-bit floating point, rounded up for heights and extents, to nearest for advances,
and down for the left edge of a glyph.
-/

namespace PanelSkin

/-- A box in font units; the vertical axis points up. -/
structure OutlineBox where
  xMin : Int
  yMin : Int
  xMax : Int
  yMax : Int
  deriving DecidableEq, Repr, Inhabited

/-- An outline made of boxes, and the characters it stands for. -/
structure OutlineGlyph where
  characters : List Char := []
  advance : Nat
  boxes : List OutlineBox := []
  deriving DecidableEq, Repr, Inhabited

/-- A font in font units. The first glyph stands for characters without one. -/
structure OutlineFont where
  unitsPerEm : Nat
  ascender : Int
  descender : Int
  lineGap : Int
  family : String := ""
  glyphs : List OutlineGlyph := []
  deriving DecidableEq, Repr, Inhabited

namespace OutlineBox

/-- The least box around two. -/
def union (a b : OutlineBox) : OutlineBox :=
  ⟨min a.xMin b.xMin, min a.yMin b.yMin, max a.xMax b.xMax, max a.yMax b.yMax⟩

/-- The least box around some; `none` without boxes. -/
def around : List OutlineBox → Option OutlineBox
  | [] => none
  | b :: rest => some (rest.foldl union b)

end OutlineBox

namespace OutlineFont

/-- Whether a font can be read: it has a glyph at least, and so few to so many units per em. -/
def isParsable (f : OutlineFont) : Bool :=
  16 ≤ f.unitsPerEm && f.unitsPerEm ≤ 16384 && !f.glyphs.isEmpty

/-- Pixels per font unit at a size. -/
def scale (f : OutlineFont) (size : Nat) : Float32 :=
  Float32.ofNat size / Float32.ofNat f.unitsPerEm

def scaled (scale : Float32) (units : Int) : Float32 := Float32.ofInt units * scale

/-- A scaled measure, rounded up. -/
def scaledUp (scale : Float32) (units : Int) : Int := (scaled scale units).ceil.toInt32.toInt

def glyphOf? (f : OutlineFont) (c : Char) : Option OutlineGlyph :=
  f.glyphs.find? (·.characters.contains c)

/-- A scaled advance, rounded to nearest. -/
def advance (scale : Float32) (g : OutlineGlyph) : Int :=
  (scaled scale g.advance).round.toInt32.toInt

/-- The characters whose widest advance is the width of a font. -/
def measuredCharacters : List Char := (List.range 95).map fun n => Char.ofNat (n + 32)

/-- The nearest whole number, halves up. -/
def nearest (v : Float32) : Int := (v.toFloat + 0.5).floor.toInt64.toInt

/-- Whether a pixel lies in a box after scaling, counted from the left and top edge of the
glyph. -/
def covers (scale : Float32) (around b : OutlineBox) (x y : Nat) : Bool :=
  let left := nearest (scaled scale (b.xMin - around.xMin))
  let right := nearest (scaled scale (b.xMax - around.xMin))
  let top := nearest (scaled scale (around.yMax - b.yMax))
  let bottom := nearest (scaled scale (around.yMax - b.yMin))
  left ≤ x && x < right && top ≤ y && y < bottom

/-- The bitmap of a glyph; a glyph without outline has no pixels. -/
def bitmap (scale : Float32) (g : OutlineGlyph) : Glyph :=
  match OutlineBox.around g.boxes with
  | none => {}
  | some around =>
    let width := (scaled scale (around.xMax - around.xMin)).ceil.toUInt32.toNat
    let height := (scaled scale (around.yMax - around.yMin)).ceil.toUInt32.toNat
    if width = 0 ∨ height = 0 then {}
    else
      let coverage := (List.range height).flatMap fun y => (List.range width).map fun x =>
        if g.boxes.any fun b => covers scale around b x y then (255 : UInt8) else 0
      { width, height, coverage := coverage.toArray
        bearingX := (scaled scale around.xMin).floor.toInt32.toInt
        bearingY := scaledUp scale around.yMax }

/-- The font at a size in pixels per em. -/
def face (f : OutlineFont) (size : Nat) : Face :=
  let scale := f.scale size
  let advances := (measuredCharacters.filterMap f.glyphOf?).map (advance scale)
  { totalWidth := advances.max?.getD 0
    totalHeight := scaledUp scale (f.ascender - f.descender)
    totalAscent := scaledUp scale f.ascender
    spaceBetween := 0
    lineHeight := scaledUp scale (f.ascender - f.descender + f.lineGap)
    charWidth := fun c =>
      (((f.glyphOf? c).or f.glyphs.head?).map (advance scale)).getD 0
    glyph := fun c => (f.glyphOf? c).map (bitmap scale) }

/-- The font at a size, if it can be read at all. -/
def face? (f : OutlineFont) (size : Nat) : Except FontError Face :=
  if f.isParsable then .ok (f.face size) else .error .unparsable

end OutlineFont

end PanelSkin
