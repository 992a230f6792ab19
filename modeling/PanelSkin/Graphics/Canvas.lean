import PanelSkin.Graphics.DrawCall

/-!
The canvas: a pixel buffer that dots are drawn on. Dots outside of it are lost; translucent ones
mix with what is there. What changed since an earlier moment is told row by row.
-/

namespace PanelSkin

/-- Pixels of a surface, row by row. -/
structure Canvas where
  width : Nat
  height : Nat
  pixels : Array Color
  deriving Repr

namespace Canvas

def filled (width height : Nat) (background : Color := .white) : Canvas :=
  ⟨width, height, Array.replicate (width * height) background⟩

def bounds (c : Canvas) : Rect := .sized 0 0 c.width c.height

/-- The color of a pixel on the canvas. -/
def pixel? (c : Canvas) (x y : Nat) : Option Color :=
  if x < c.width ∧ y < c.height then c.pixels[y * c.width + x]? else none

/-- Sets a pixel without mixing. -/
def setPixel (c : Canvas) (x y : Nat) (color : Color) : Canvas :=
  if x < c.width ∧ y < c.height then
    { c with pixels := c.pixels.set! (y * c.width + x) color }
  else c

/-- Draws one dot over what is there. -/
def plot (c : Canvas) (d : Dot) : Canvas :=
  if 0 ≤ d.x ∧ 0 ≤ d.y then
    match c.pixel? d.x.toNat d.y.toNat with
    | some below => c.setPixel d.x.toNat d.y.toNat (d.color.onto below)
    | none => c
  else c

def plotAll (c : Canvas) (dots : List Dot) : Canvas := dots.foldl plot c

def draw (c : Canvas) (call : DrawCall) : Canvas := c.plotAll (call.dots c.bounds)

def drawAll (c : Canvas) (calls : List DrawCall) : Canvas := calls.foldl draw c

def clear (c : Canvas) (color : Color) : Canvas := filled c.width c.height color

def row (c : Canvas) (y : Nat) : List Color :=
  (c.pixels.extract (y * c.width) ((y + 1) * c.width)).toList

/-- Runs of equal pixels, with their lengths. -/
def runs (pixels : List Color) : List (Color × Nat) :=
  (pixels.splitBy (· == ·)).filterMap fun run => run.head?.map (·, run.length)

/-- The rows in which a canvas differs from what it was, each with its runs of equal pixels. -/
def changedRows (c before : Canvas) : List (Nat × List (Color × Nat)) :=
  (List.range c.height).filterMap fun y =>
    if c.row y = before.row y then none else some (y, runs (c.row y))

end Canvas

end PanelSkin
