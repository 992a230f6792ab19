import PanelSkin.Expr.Basic
import PanelSkin.Graphics.Color
import PanelSkin.Graphics.Rect

/-!
The box and the colors of a widget as expressions, resolved in a container when the widget is
drawn. A coordinate counts from the near edge of the container, or from the far edge if it is
negative; the far corner can be given by a length instead.
-/

namespace PanelSkin

/-- Right or bottom bound of a widget. -/
inductive Span where
  /-- A coordinate in the container. -/
  | edge (e : Expr)
  /-- A number of pixels from the near bound. -/
  | length (e : Expr)
  deriving Repr

/-- The box of a widget; by default its whole container. -/
structure Geometry where
  x1 : Expr := .number 0
  y1 : Expr := .number 0
  x2 : Span := .edge (.number (-1))
  y2 : Span := .edge (.number (-1))
  deriving Repr

namespace Geometry

variable {m : Type → Type} [Monad m]

/-- A coordinate, held so far from the ends of its range that sums of two stay inside. -/
def clampCoordinate (n : Int) : Int := max (-0x40000000) (min 0x3FFFFFFF n)

def coordinate (lookups : Lookups m) (e : Expr) : m Int := do
  return clampCoordinate (← e.evaluateNumber lookups).toInt

/-- A coordinate in a container that starts at `origin` and has `size` pixels. -/
def place (value origin size : Int) : Int :=
  if value < 0 then origin + size + value else origin + value

/-- The far bound of a widget whose near bound is `start`. -/
def Span.resolve (lookups : Lookups m) (start origin size : Int) : Span → m Int
  | .edge e => do return place (← coordinate lookups e) origin size
  | .length e => do return start + (← coordinate lookups e) - 1

def resolve (lookups : Lookups m) (g : Geometry) (container : Rect) : m Rect := do
  let x1 := place (← coordinate lookups g.x1) container.x1 container.width
  let y1 := place (← coordinate lookups g.y1) container.y1 container.height
  let x2 ← Span.resolve lookups x1 container.x1 container.width g.x2
  let y2 ← Span.resolve lookups y1 container.y1 container.height g.y2
  return ⟨x1, y1, x2, y2⟩

end Geometry

/-- A color of a widget: fixed, or the text of a variable when it is drawn. -/
inductive Paint where
  | fixed (color : Color)
  | reference (id : String)
  deriving DecidableEq, Repr

namespace Paint

/-- Reads a color, or `#id` for a variable. -/
def parse? (text : String) : Option Paint :=
  match Text.trim text.toList with
  | '#' :: id => if id.isEmpty then none else some (.reference (String.ofList id))
  | _ => (Color.parse? text).map .fixed

variable {m : Type → Type} [Monad m]

/-- The color now; a variable without a color gives `fallback`. -/
def resolve (lookups : Lookups m) (fallback : Color) : Paint → m Color
  | .fixed color => pure color
  | .reference id => do
    let value ← lookups.variableValue id
    return (value.bind fun v => Color.parse? v.asText).getD fallback

end Paint

end PanelSkin
