import PanelSkin.Widget.Bar
import PanelSkin.Widget.PictureBox
import PanelSkin.Widget.TextBox

/-!
Widgets as a tree. Blocks and lists hold other widgets. The first child of a list is its item,
which says how high a row is; the others are repeated in every row, and each row keeps copies of
its own, so that what they show moves on by itself.
-/

namespace PanelSkin

/-- A widget without children, apart from its style. -/
inductive Leaf where
  | pixel
  | line
  | rectangle (filled : Bool) (radius : Expr)
  | ellipse (filled : Bool) (arc : Expr)
  | slope (arc : Expr)
  | picture (box : PictureBox)
  | progress (bar : Bar)
  | scrollbar (bar : Bar)
  | text (box : TextBox)
  | button (button : Button)
  /-- The item of a list, with the height of a row. -/
  | item (height : Expr)
  deriving Repr

inductive Widget where
  | leaf (style : Style) (kind : Leaf)
  | block (style : Style) (children : List Widget)
  /-- A list; it has no rows before it is drawn. -/
  | list (style : Style) (children : List Widget) (rows : Option (List (List Widget)))

/-- The name of a kind of widget. -/
def Leaf.name : Leaf → String
  | .pixel => "pixel"
  | .line => "line"
  | .rectangle .. => "rectangle"
  | .ellipse .. => "ellipse"
  | .slope _ => "slope"
  | .picture _ => "image"
  | .progress _ => "progress"
  | .scrollbar _ => "scrollbar"
  | .text _ => "text"
  | .button _ => "button"
  | .item _ => "item"

namespace Widget

/-- The name of a kind of widget. -/
def name : Widget → String
  | .leaf _ kind => kind.name
  | .block .. => "block"
  | .list .. => "list"

def style : Widget → Style
  | .leaf style _ | .block style _ | .list style _ _ => style

/-- Whether a widget is the item of a list. -/
def isItem : Widget → Bool
  | .leaf _ (.item _) => true
  | _ => false

/-- The row height of a list with some children, if the first of them is an item. -/
def itemHeight? : List Widget → Option Expr
  | .leaf _ (.item height) :: _ => some height
  | _ => none

/-- Induction over trees, where a list comes with the widgets in its rows too. -/
@[elab_as_elim, induction_eliminator]
theorem induct {motive : Widget → Prop} (leaf : ∀ style kind, motive (.leaf style kind))
    (block : ∀ style children, (∀ child ∈ children, motive child) → motive (.block style children))
    (list : ∀ style children rows, (∀ child ∈ children, motive child) →
      (∀ row ∈ rows.getD [], ∀ child ∈ row, motive child) →
      motive (.list style children rows)) : (w : Widget) → motive w
  | .leaf style kind => leaf style kind
  | .block style children => block style children fun child _ => induct leaf block list child
  | .list style children none =>
    list style children none (fun child _ => induct leaf block list child) (by simp)
  | .list style children (some rows) =>
    list style children (some rows) (fun child _ => induct leaf block list child)
      fun row (_ : row ∈ rows) child _ => induct leaf block list child
termination_by w => sizeOf w
decreasing_by
  all_goals have := List.sizeOf_lt_of_mem ‹child ∈ _›
  · simp
    omega
  · simp
    omega
  · simp
    omega
  · have := List.sizeOf_lt_of_mem ‹row ∈ rows›
    simp
    omega

end Widget

end PanelSkin
