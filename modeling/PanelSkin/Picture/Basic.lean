import PanelSkin.Graphics.Color

/-!
Pictures: one size, and frames of color bytes that each show for some time. A picture is scaled
by naming one side or both; a single named side keeps the proportions.
-/

namespace PanelSkin

/-- How long a frame shows that says nothing about it, in milliseconds. -/
def defaultDelay : Nat := 100

/-- One frame: four bytes per pixel, row by row, and the time it shows in milliseconds. -/
structure Frame where
  pixels : Array UInt8
  delay : Nat := defaultDelay
  deriving DecidableEq, Repr, Inhabited

structure Picture where
  width : Nat
  height : Nat
  frames : List Frame
  deriving DecidableEq, Repr, Inhabited

/-- Computes the bytes of a frame of one size, width and height, at another size. -/
abbrev Resampler := Array UInt8 → Nat × Nat → Nat × Nat → Array UInt8

/-- Each pixel is the one at the same relative position. -/
def nearestPixel : Resampler := fun pixels (w, h) (tw, th) =>
  let bytes := (List.range th).flatMap fun y => (List.range tw).flatMap fun x =>
    let offset := ((y * h / th) * w + x * w / tw) * 4
    (List.range 4).map fun k => pixels.getD (offset + k) 0
  bytes.toArray

namespace Picture

def frameCount (p : Picture) : Nat := p.frames.length

/-- How long a frame shows; zero for a frame that is not there. -/
def delay (p : Picture) (frame : Nat) : Nat := (p.frames[frame]?.map (·.delay)).getD 0

/-- The color at a byte offset, if all four bytes are there. -/
def colorAt? (pixels : Array UInt8) (offset : Nat) : Option Color := do
  let r ← pixels[offset]?
  let g ← pixels[offset + 1]?
  let b ← pixels[offset + 2]?
  let a ← pixels[offset + 3]?
  return ⟨r, g, b, a⟩

/-- The color of a pixel of a frame. -/
def pixel? (p : Picture) (frame x y : Nat) : Option Color := do
  let f ← p.frames[frame]?
  if x < p.width ∧ y < p.height then colorAt? f.pixels ((y * p.width + x) * 4) else none

/-- `t` scaled by `a / b`, halves up. -/
def proportion (t a b : Nat) : Nat := (t * a + b / 2) / b

/-- The size for a request; a side that is not asked for follows from the other. Sides are words
of 32 bits. -/
def scaledSize (p : Picture) (width height : Option Nat) : Nat × Nat :=
  let w := max p.width 1
  let h := max p.height 1
  match width, height with
  | some tw, some th => (tw, th)
  | some tw, none => (tw, proportion tw h w % 0x100000000)
  | none, some th => (proportion th w h % 0x100000000, th)
  | none, none => (p.width, p.height)

/-- The bytes of a frame at another size. A frame without enough bytes becomes all zero. -/
def resample (p : Picture) (scale : Resampler) (tw th : Nat) (f : Frame) : Frame :=
  if f.pixels.size < p.width * p.height * 4 then
    { f with pixels := Array.replicate (tw * th * 4) 0 }
  else { f with pixels := scale f.pixels (p.width, p.height) (tw, th) }

/-- The picture at a requested size, each side of which is one pixel at least. -/
def resized (p : Picture) (width height : Option Nat) (scale : Resampler := nearestPixel) :
    Picture :=
  let (tw, th) := p.scaledSize width height
  let (tw, th) := (max tw 1, max th 1)
  if (tw, th) = (p.width, p.height) then p
  else { width := tw, height := th, frames := p.frames.map (p.resample scale tw th) }

end Picture

end PanelSkin
