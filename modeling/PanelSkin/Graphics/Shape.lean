import PanelSkin.Graphics.Line

/-!
Closed shapes: rectangles, rounded rectangles, ellipses and their quadrants, and slopes. A shape
with a test for its inside is drawn filled, or as the inside pixels with a neighbour outside.
-/

namespace PanelSkin

/-- A set of pixels by its membership test. A test comes to nothing if a number on the way does not
fit into a word. -/
abbrev Region := Int → Int → Option Bool

namespace Region

/-- Whether a pixel lies outside. -/
def isOutside (inside : Region) (x y : Int) : Option Bool := (inside x y).map not

/-- Whether one of a pixel's four neighbours lies outside. -/
def isEdge (inside : Region) (x y : Int) : Option Bool :=
  inside.isOutside (x - 1) y <||> inside.isOutside (x + 1) y <||> inside.isOutside x (y - 1)
    <||> inside.isOutside x (y + 1)

/-- The pixels of a region in a rectangle, all of them or its edge, that show inside `bounds`, if
every test comes to something. -/
def points? (inside : Region) (rect : Rect) (filled : Bool) (bounds : Rect) :
    Option (List Point) :=
  (rect.intersect bounds).points.filterM fun p =>
    inside p.x p.y <&&> (inside.isEdge p.x p.y).map (filled || ·)

/-- The pixels of a region that are drawn. Where a test comes to nothing, so does the drawing. -/
def points (inside : Region) (rect : Rect) (filled : Bool) (bounds : Rect) : List Point :=
  (inside.points? rect filled bounds).getD []

end Region

namespace Rect

/-- The pixels of a rectangle, or of its four sides, that show inside `bounds`. -/
def drawn (r : Rect) (filled : Bool) (bounds : Rect) : List Point :=
  if r.isEmpty then []
  else if filled then (r.intersect bounds).points
  else
    Line.points ⟨r.x1, r.y1, r.x2, r.y1⟩ bounds ++ Line.points ⟨r.x1, r.y2, r.x2, r.y2⟩ bounds
      ++ Line.points ⟨r.x1, r.y1, r.x1, r.y2⟩ bounds
      ++ Line.points ⟨r.x2, r.y1, r.x2, r.y2⟩ bounds

/-- Half the shorter side, the largest radius a rounded corner can have. -/
def radiusLimit (r : Rect) : Int := (min r.width r.height).tdiv 2

/-- The radius that is drawn when one is asked for: between zero and the limit. A rectangle whose
limit is negative has none. -/
def effectiveRadius? (r : Rect) (radius : Int) : Option Int :=
  if 0 ≤ r.radiusLimit then some (max 0 (min radius r.radiusLimit)) else none

/-- The inside of a rectangle with rounded corners: in a corner's square, the pixels not further
from the corner's centre than the radius. -/
def rounded (r : Rect) (radius : Int) : Region := fun x y =>
  let centre (v low high : Int) : Option Int :=
    if v < low + radius then some (low + radius)
    else if high - radius < v then some (high - radius)
    else none
  some (r.contains x y &&
    match centre x r.x1 r.x2, centre y r.y1 r.y2 with
    | some cx, some cy => (x - cx) * (x - cx) + (y - cy) * (y - cy) ≤ radius * radius
    | _, _ => true)

/-- The pixels of a rectangle with rounded corners. -/
def drawnRounded (r : Rect) (filled : Bool) (radius : Int) (bounds : Rect) : List Point :=
  match r.effectiveRadius? radius with
  | none => []
  | some 0 => r.drawn filled bounds
  | some radius => Region.points (r.rounded radius) r filled bounds

/-- Centre and radii of an ellipse, all doubled so that they are whole. -/
structure Oval where
  cx : Int
  cy : Int
  rx : Int
  ry : Int
  deriving DecidableEq, Repr

/-- A result in a word of 128 bits, if it fits. -/
def wide? (n : Int) : Option Int :=
  if -0x80000000000000000000000000000000 ≤ n ∧ n ≤ 0x7FFFFFFFFFFFFFFFFFFFFFFFFFFFFFFF then some n
  else none

/-- A product in such a word, computed factor by factor. -/
def product? (factors : List Int) : Option Int :=
  factors.foldlM (fun product factor => wide? (product * factor)) 1

namespace Oval

/-- Twice the way across from the centre to that of a pixel. -/
def across (o : Oval) (x : Int) : Int := 2 * x + 1 - o.cx

/-- Twice the way down from the centre to that of a pixel. -/
def down (o : Oval) (y : Int) : Int := 2 * y + 1 - o.cy

/-- Whether the centre of a pixel lies in the ellipse, computed in words of 128 bits. -/
def holds? (o : Oval) (x y : Int) : Option Bool := do
  let across ← product? [o.across x, o.across x, o.ry, o.ry]
  let down ← product? [o.down y, o.down y, o.rx, o.rx]
  let distance ← wide? (across + down)
  return distance ≤ (← product? [o.rx, o.rx, o.ry, o.ry])

end Oval

/-- The ellipse that fills a rectangle, or the one of which the rectangle holds a quadrant: 1 top
right, 2 top left, 3 bottom left, 4 bottom right. -/
def oval (r : Rect) (quadrant : Int) : Oval :=
  let w := r.width
  let h := r.height
  if quadrant = 1 then ⟨2 * r.x1, 2 * r.y2 + 1, 2 * w, 2 * h⟩
  else if quadrant = 2 then ⟨2 * r.x2 + 1, 2 * r.y2 + 1, 2 * w, 2 * h⟩
  else if quadrant = 3 then ⟨2 * r.x2 + 1, 2 * r.y1, 2 * w, 2 * h⟩
  else if quadrant = 4 then ⟨2 * r.x1, 2 * r.y1, 2 * w, 2 * h⟩
  else ⟨r.x1 + r.x2 + 1, r.y1 + r.y2 + 1, w, h⟩

/-- The inside of an ellipse or quadrant: pixels of the rectangle whose centre lies in it. -/
def elliptic (r : Rect) (quadrant : Int) : Region := fun x y =>
  if r.contains x y then (r.oval quadrant).holds? x y else some false

/-- The pixels of an ellipse or quadrant. -/
def drawnEllipse (r : Rect) (filled : Bool) (quadrant : Int) (bounds : Rect) : List Point :=
  if r.isEmpty then [] else Region.points (r.elliptic quadrant) r filled bounds

/-- The circle number in binary floating point. -/
def circleNumber : Float := 3.14159265358979323846264338327950288

/-- Number of pixels of a slope in the column `i` columns from the left. -/
def slopeLevel (r : Rect) (kind : Int) (i : Int) : Int :=
  let t := if 1 < r.width then Float.ofInt i / Float.ofInt (r.width - 1) else 1.0
  let t := if kind.tmod 2 = 1 then 1.0 - t else t
  ((1.0 - (t * circleNumber).cos) / 2.0 * Float.ofInt r.height).round.toInt32.toInt

/-- The pixels of a slope, a half wave of the cosine: rising for an even kind and falling for an
odd one, filled from below for kinds under 2 and from above for others. -/
def drawnSlope (r : Rect) (kind : Int) (bounds : Rect) : List Point :=
  if r.isEmpty then []
  else
    let area := r.intersect bounds
    (span area.x1 area.x2).flatMap fun x =>
      let level := r.slopeLevel kind (x - r.x1)
      let (top, bottom) :=
        if 2 ≤ kind then (r.y1, saturate (r.y1 + (level - 1)))
        else (saturate (r.y2 - (level - 1)), r.y2)
      (span (max top area.y1) (min bottom area.y2)).map fun y => ⟨x, y⟩

end Rect

end PanelSkin
