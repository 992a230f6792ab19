/-!
Pixel coordinates and rectangles given by inclusive corners. Coordinates are the integers of 32
bits; sizes that would leave that range stay at its ends.
-/

namespace PanelSkin

structure Point where
  x : Int
  y : Int
  deriving DecidableEq, Repr, Inhabited

/-- The nearest integer of 32 bits. -/
def saturate (n : Int) : Int := max (-0x80000000) (min 0x7FFFFFFF n)

/-- The integers from `a` to `b`, both included. -/
def span (a b : Int) : List Int := (List.range (b - a + 1).toNat).map fun (k : Nat) => a + k

/-- A rectangle; it is empty when a corner lies before its opposite. -/
structure Rect where
  x1 : Int
  y1 : Int
  x2 : Int
  y2 : Int
  deriving DecidableEq, Repr, Inhabited

namespace Rect

/-- The rectangle of a size at a position. -/
def sized (x y width height : Int) : Rect := ⟨x, y, x + width - 1, y + height - 1⟩

/-- Number of columns; not positive for an empty rectangle. -/
def width (r : Rect) : Int := saturate (saturate (r.x2 - r.x1) + 1)

/-- Number of rows; not positive for an empty rectangle. -/
def height (r : Rect) : Int := saturate (saturate (r.y2 - r.y1) + 1)

/-- Whether there is no pixel in it. -/
def isEmpty (r : Rect) : Bool := r.x2 < r.x1 || r.y2 < r.y1

def contains (r : Rect) (x y : Int) : Bool := r.x1 ≤ x && x ≤ r.x2 && r.y1 ≤ y && y ≤ r.y2

def intersect (r s : Rect) : Rect :=
  ⟨max r.x1 s.x1, max r.y1 s.y1, min r.x2 s.x2, min r.y2 s.y2⟩

def offsetY (r : Rect) (dy : Int) : Rect := ⟨r.x1, r.y1 + dy, r.x2, r.y2 + dy⟩

/-- The pixels, row by row. -/
def points (r : Rect) : List Point :=
  (span r.y1 r.y2).flatMap fun y => (span r.x1 r.x2).map fun x => ⟨x, y⟩

end Rect

end PanelSkin
