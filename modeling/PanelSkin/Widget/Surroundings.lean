import PanelSkin.Expr.Lookups
import PanelSkin.Font.Face
import PanelSkin.Picture.Basic

/-!
What widgets look up while they are drawn: everything expressions do, fonts and pictures, the
tokens of the rows of a list, and what the host says about tab stops and scrolling texts.
-/

namespace PanelSkin

/-- The text between the end and the new start of a scrolling text, unless a skin has its own. -/
def defaultSeparator : String := " *** "

structure Surroundings (m : Type → Type) extends Lookups m where
  /-- The font with an id. -/
  font : String → m (Option Face)
  /-- The picture at a path, with the sides that are asked for. -/
  picture : String → Option Nat → Option Nat → m (Option Picture)
  /-- The value of a token in a row of a list. -/
  rowToken : Token → Nat → m Value
  /-- The column of a tab stop in a box of some width. -/
  tabStop : Nat → Int → Option Int := fun _ _ => none
  /-- The text between the end and the new start of a scrolling text. -/
  separator : String := defaultSeparator

/-- The lookups of the widgets in one row of a list: tokens are those of the row. Variables are
shared by all rows, and see no row. -/
def Surroundings.atRow {m : Type → Type} (s : Surroundings m) (row : Nat) : Surroundings m :=
  { s with token := fun t => s.rowToken t row }

end PanelSkin
