import PanelSkin.Widget.Tree

/-!
Whether a tree of widgets has to be drawn again: something in it shows other content, or a step
of its movement is due. Asking changes nothing.
-/

namespace PanelSkin

variable {m : Type → Type} [Monad m]

/-- Whether a widget without children has to be drawn again. Those without a state of their own
never ask for it. -/
def Leaf.needsUpdate (s : Surroundings m) (now : Nat) : Leaf → m Bool
  | .picture box => box.needsUpdate s now
  | .text box => box.needsUpdate s now
  | _ => pure false

namespace Widget

mutual

/-- Whether a widget has to be drawn again. One that does not show never has to. -/
def needsUpdate (s : Surroundings m) (now : Nat) : Widget → m Bool
  | .leaf style kind => do
    if ← style.isVisible s.toLookups then kind.needsUpdate s now else return false
  | .block style children => do
    if ← style.isVisible s.toLookups then anyNeedsUpdate s now children else return false
  | .list style _ rows => do
    if ← style.isVisible s.toLookups then rowsNeedUpdate s now rows else return false

/-- Whether one of some widgets has to be drawn again; the others are not asked after it. -/
def anyNeedsUpdate (s : Surroundings m) (now : Nat) : List Widget → m Bool
  | [] => pure false
  | first :: rest => do
    if ← needsUpdate s now first then return true else anyNeedsUpdate s now rest

/-- Whether the rows of a list have to be drawn again; rows that are not there have to. -/
def rowsNeedUpdate (s : Surroundings m) (now : Nat) : Option (List (List Widget)) → m Bool
  | none => pure true
  | some rows => rowsNeedUpdateFrom s now 0 rows

/-- Whether one of the rows from row `row` on has to be drawn again. -/
def rowsNeedUpdateFrom (s : Surroundings m) (now : Nat) (row : Nat) :
    List (List Widget) → m Bool
  | [] => pure false
  | first :: rest => do
    if ← anyNeedsUpdate (s.atRow row) now first then return true
    else rowsNeedUpdateFrom s now (row + 1) rest

end

end Widget

end PanelSkin
