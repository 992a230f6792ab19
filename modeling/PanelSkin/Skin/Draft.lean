import PanelSkin.Skin.Context
import PanelSkin.Skin.Error
import PanelSkin.Widget.Tree

/-!
A skin while its documents are being read. Widgets whose elements are open wait on a stack, the
innermost on top; a widget joins its parent, or the display, when its element is closed.
-/

namespace PanelSkin

structure Display where
  id : String
  widgets : List Widget := []

structure Header where
  version : String
  name : String
  enable : Option Expr
  deriving Repr

structure LoadOptions where
  /-- Pictures that a skin keeps. -/
  pictureCapacity : Nat := PictureCache.defaultCapacity
  /-- How deep included files can nest. -/
  includeDepth : Nat := 5
  /-- The text between the end and the new start of a scrolling text. -/
  separator : String := defaultSeparator
  deriving Repr

/-- A skin as far as it has been read. -/
structure Draft where
  header : Option Header := none
  /-- Finished displays. -/
  displays : List Display := []
  /-- The display whose element is open. -/
  display : Option Display := none
  /-- Widgets whose elements are open, the innermost first. -/
  opened : List Widget := []
  /-- The text in the innermost widget. -/
  text : String := ""
  variableTable : VariableTable := {}
  fontTable : FontTable := {}
  cells : Cells := []
  shelf : Shelf

/-- What stays the same while a skin is read. -/
structure Loading where
  env : Environment
  /-- The directory of the skin. -/
  base : FilePath
  options : LoadOptions := {}

abbrev Reading := StateT Draft (Except LoadError)

namespace Loading

def blank (l : Loading) : Draft :=
  { shelf := { pictures := .empty l.base l.options.pictureCapacity } }

/-- The context of expressions at some point of reading: what was declared before. -/
def context (l : Loading) (d : Draft) : Context :=
  { env := l.env, base := l.base, separator := l.options.separator
    variableTable := d.variableTable, fontTable := d.fontTable }

/-- Carries out an evaluation that reads an expression or a template. -/
def evaluate {α : Type} (l : Loading)
    (action : Lookups Evaluation → Evaluation (Except ExprError α)) : Reading α := fun d =>
  match action (l.context d).all d.cells d.shelf with
  | none => .error .endless
  | some ((.error cause, _), _) => .error (.expr cause)
  | some ((.ok a, cells), shelf) => .ok (a, { d with cells, shelf })

def readExpr (l : Loading) (text : String) : Reading Expr :=
  l.evaluate fun lookups => Expr.parse lookups text

def readTemplate (l : Loading) (text : String) : Reading Template :=
  l.evaluate fun lookups => Template.parse lookups text

end Loading

namespace Draft

def declareVariable (d : Draft) (v : VariableDecl) : Draft :=
  { d with variableTable := d.variableTable.push v, cells := d.cells ++ [{}] }

def declareFont (d : Draft) (f : FontDecl) : Draft :=
  { d with
    fontTable := d.fontTable.push f
    shelf := { d.shelf with fontSlots := d.shelf.fontSlots ++ [none] } }

/-- The draft with one more open widget. -/
def push (d : Draft) (w : Widget) : Draft := { d with opened := w :: d.opened, text := "" }

/-- The draft with more text in its innermost widget, if that shows a text. -/
def addText (d : Draft) (content : String) : Draft :=
  match d.opened with
  | .leaf _ (.text _) :: _ | .leaf _ (.button _) :: _ => { d with text := d.text ++ content }
  | _ => d

/-- The draft with its open display finished. -/
def finishDisplay (d : Draft) : Draft :=
  match d.display with
  | none => d
  | some display => { d with display := none, displays := d.displays ++ [display] }

/-- A container with one more child. Lists start with an item, and items stand nowhere else. -/
def adopt (child : Widget) : Widget → Except LoadError Widget
  | .leaf .. => .error (.unexpectedTag child.name .insideLeaf)
  | .block style children =>
    if child.isItem then .error (.unexpectedTag "item" .afterListStart)
    else .ok (.block style (children ++ [child]))
  | .list style children rows =>
    if child.isItem = children.isEmpty then .ok (.list style (children ++ [child]) rows)
    else if child.isItem then .error (.unexpectedTag "item" .afterListStart)
    else .error .missingItem

/-- The draft with a finished widget in its place: in the innermost open widget, or in the open
display. -/
def attach (d : Draft) (w : Widget) : Except LoadError Draft :=
  match d.opened with
  | parent :: outer => do
    let parent ← adopt w parent
    return { d with opened := parent :: outer }
  | [] =>
    if w.isItem then .error (.unexpectedTag "item" .outsideList)
    else match d.display with
      | some display =>
        .ok { d with display := some { display with widgets := display.widgets ++ [w] } }
      | none => .error (.unexpectedTag w.name .outsideDisplay)

end Draft

end PanelSkin
