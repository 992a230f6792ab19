import PanelSkin.Graphics.DrawCall
import PanelSkin.Widget.Geometry

/-!
What all widgets have: a box, two colors and a condition. When a widget is drawn they give its
look, or none if the condition does not hold.
-/

namespace PanelSkin

/-- What all widgets have. By default a widget fills its container and is black on nothing. -/
structure Style where
  geometry : Geometry := {}
  color : Paint := .fixed .black
  background : Paint := .fixed .transparent
  condition : Option Expr := none
  deriving Repr

/-- A style in a container at some moment. -/
structure Look where
  box : Rect
  color : Color
  background : Color
  deriving DecidableEq, Repr

/-- The box filled with the background, if that shows. -/
def Look.backdrop (look : Look) : List DrawCall :=
  if look.background.isTransparent then [] else [.rectangle look.box look.background true]

namespace Style

variable {m : Type → Type} [Monad m]

def isVisible (lookups : Lookups m) (style : Style) : m Bool :=
  match style.condition with
  | none => pure true
  | some condition => condition.evaluateBool lookups

/-- The look of a widget in a container. -/
def look (lookups : Lookups m) (style : Style) (container : Rect) : m (Option Look) := do
  if ← style.isVisible lookups then
    let box ← style.geometry.resolve lookups container
    let color ← style.color.resolve lookups .black
    let background ← style.background.resolve lookups .transparent
    return some { box, color, background }
  else return none

end Style

/-- The value of an expression as a word of 32 bits. -/
def Expr.evaluateWord {m : Type → Type} [Monad m] (lookups : Lookups m) (e : Expr) : m Int := do
  return (← e.evaluateNumber lookups).toInt32.toInt

end PanelSkin
