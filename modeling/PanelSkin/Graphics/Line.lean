import PanelSkin.Graphics.Rect

/-!
Lines. A line with both ends inside the bounds is drawn by the midpoint rule; any other is cut
to the bounds first, at parameters computed in binary floating point.
-/

namespace PanelSkin

structure Line where
  x1 : Int
  y1 : Int
  x2 : Int
  y2 : Int
  deriving DecidableEq, Repr

namespace Line

/-- Narrows an interval of parameters to one side of a boundary: `p` is how fast the line
approaches it, `q` how far away the start is. -/
def narrow (range : Float × Float) (side : Float × Float) : Option (Float × Float) :=
  let (t0, t1) := range
  let (p, q) := side
  if p == 0.0 then if q < 0.0 then none else some range
  else
    let t := q / p
    let t0 := if p < 0.0 && t0 < t then t else t0
    let t1 := if p < 0.0 then t1 else if t < t1 then t else t1
    if t0 > t1 then none else some (t0, t1)

/-- The part of a line inside `bounds`; `none` when nothing of it shows. A line already inside is
unchanged. -/
def clip? (l : Line) (bounds : Rect) : Option Line :=
  if bounds.isEmpty then none
  else if bounds.contains l.x1 l.y1 && bounds.contains l.x2 l.y2 then some l
  else do
    let fx := Float.ofInt l.x1
    let fy := Float.ofInt l.y1
    let dx := Float.ofInt l.x2 - fx
    let dy := Float.ofInt l.y2 - fy
    let sides := [(-dx, fx - Float.ofInt bounds.x1), (dx, Float.ofInt bounds.x2 - fx),
      (-dy, fy - Float.ofInt bounds.y1), (dy, Float.ofInt bounds.y2 - fy)]
    let (t0, t1) ← sides.foldlM narrow (0.0, 1.0)
    let along (t : Float) (origin delta : Float) : Int := (origin + t * delta).round.toInt32.toInt
    return ⟨along t0 fx dx, along t0 fy dy, along t1 fx dx, along t1 fy dy⟩

/-- The direction from one coordinate to another. -/
def direction (a b : Int) : Int := if a < b then 1 else -1

/-- Walks to the line's end from `(x, y)`, where `error` says how far the walk has strayed; `dx`
and `dy` are the distances between the ends, the second one negated. At most `bound` further
pixels. -/
def walk (l : Line) (dx dy : Int) : Nat → Int → Int → Int → List Point
  | 0, x, y, _ => [⟨x, y⟩]
  | bound + 1, x, y, error =>
    if x = l.x2 ∧ y = l.y2 then [⟨x, y⟩]
    else
      let twice := 2 * error
      let (x', afterX) := if dy ≤ twice then (x + direction l.x1 l.x2, error + dy) else (x, error)
      let (y', afterY) := if twice ≤ dx then (y + direction l.y1 l.y2, afterX + dx) else (y, afterX)
      ⟨x, y⟩ :: walk l dx dy bound x' y' afterY

/-- The pixels of a line inside the bounds, from its start to its end. -/
def track (l : Line) : List Point :=
  let dx : Int := (l.x2 - l.x1).natAbs
  let dy : Int := -((l.y2 - l.y1).natAbs : Int)
  walk l dx dy (dx - dy).toNat l.x1 l.y1 (dx + dy)

/-- The pixels of a line that show inside `bounds`. -/
def points (l : Line) (bounds : Rect) : List Point :=
  match l.clip? bounds with
  | some inside => inside.track
  | none => []

end Line

end PanelSkin
