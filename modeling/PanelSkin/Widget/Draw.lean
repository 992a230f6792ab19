import PanelSkin.Widget.Tree

/-!
Drawing a tree of widgets. Drawing gives the drawing calls in order, and the tree as it is
afterwards: scrolled and played on. A widget that does not show stays as it is.
-/

namespace PanelSkin

/-- Draws something in a container at some time. -/
abbrev Drawing (m : Type → Type) (α : Type) := Surroundings m → Rect → Nat → m (α × List DrawCall)

variable {m : Type → Type} [Monad m]

def Leaf.draw (leaf : Leaf) (s : Surroundings m) (look : Look) (now : Nat) :
    m (Leaf × List DrawCall) :=
  let box := look.box
  match leaf with
  | .pixel => pure (leaf, [.pixel box.x1 box.y1 look.color])
  | .line => pure (leaf, [.line ⟨box.x1, box.y1, box.x2, box.y2⟩ look.color])
  | .rectangle filled radius => do
    let radius ← radius.evaluateWord s.toLookups
    if 0 < radius then return (leaf, [.roundRectangle box look.color filled radius])
    else return (leaf, [.rectangle box look.color filled])
  | .ellipse filled arc => do
    return (leaf, [.ellipse box look.color filled (← arc.evaluateWord s.toLookups)])
  | .slope arc => do return (leaf, [.slope box look.color (← arc.evaluateWord s.toLookups)])
  | .picture shown => do
    let (shown, calls) ← shown.draw s look now
    return (.picture shown, calls)
  | .progress bar => do return (leaf, ← bar.drawProgress s.toLookups look)
  | .scrollbar bar => do return (leaf, ← bar.drawScrollbar s.toLookups look)
  | .text shown => do
    let (shown, calls) ← shown.draw s look now
    return (.text shown, calls)
  | .button shown => do return (leaf, ← shown.draw s look)
  | .item _ => pure (leaf, [])

/-- How many rows of a height are in a box. -/
def rowCount (box : Rect) (height : Int) : Nat :=
  if 0 < height then (box.height.tdiv height).toNat else 0

def rowBox (box : Rect) (height : Int) (row : Nat) : Rect :=
  Rect.offsetY ⟨box.x1, box.y1, box.x2, box.y1 + height - 1⟩ (row * height)

/-- Draws `count` rows from row `row` on: those that are there, and `fresh` ones after them. -/
def drawRows {α : Type} (fresh : Drawing m α) (s : Surroundings m) (box : Rect) (height : Int)
    (now : Nat) (row : Nat) : Nat → List (Drawing m α) → m (List α × List DrawCall)
  | 0, _ => pure ([], [])
  | count + 1, rows => do
    let (first, calls) ← rows.head?.getD fresh (s.atRow row) (rowBox box height row) now
    let (others, more) ← drawRows fresh s box height now (row + 1) count rows.tail
    return (first :: others, calls ++ more)

namespace Widget

mutual

def draw : Widget → Drawing m Widget
  | .leaf style kind => fun s container now => do
    match ← style.look s.toLookups container with
    | none => return (.leaf style kind, [])
    | some look =>
      let (drawn, calls) ← kind.draw s look now
      return (.leaf style drawn, calls)
  | .block style children => fun s container now => do
    match ← style.look s.toLookups container with
    | none => return (.block style children, [])
    | some look =>
      let (drawn, calls) ← drawAll children s look.box now
      return (.block style drawn, look.backdrop ++ calls)
  | .list style children rows => fun s container now => do
    match ← style.look s.toLookups container with
    | none => return (.list style children rows, [])
    | some look =>
      match itemHeight? children with
      | none => return (.list style children (some (rows.getD [])), [])
      | some height =>
        let height ← height.evaluateWord s.toLookups
        let count := rowCount look.box height
        let (drawn, calls) ←
          drawRows (drawTemplate children) s look.box height now 0 count (rowDrawings rows)
        return (.list style children (some drawn), calls)

/-- Draws widgets one after the other in the same container. -/
def drawAll : List Widget → Drawing m (List Widget)
  | [] => fun _ _ _ => pure ([], [])
  | first :: rest => fun s container now => do
    let (first, calls) ← draw first s container now
    let (rest, more) ← drawAll rest s container now
    return (first :: rest, calls ++ more)

/-- Draws what a new row of a list holds: its children without the item. -/
def drawTemplate : List Widget → Drawing m (List Widget)
  | [] => fun _ _ _ => pure ([], [])
  | _ :: rest => drawAll rest

/-- Draws the rows that a list has. -/
def rowDrawings : Option (List (List Widget)) → List (Drawing m (List Widget))
  | none => []
  | some rows => rowDrawingsOf rows

def rowDrawingsOf : List (List Widget) → List (Drawing m (List Widget))
  | [] => []
  | row :: rest => drawAll row :: rowDrawingsOf rest

end

theorem rowDrawings_eq_map (rows : Option (List (List Widget))) :
    (rowDrawings rows : List (Drawing m (List Widget))) = (rows.getD []).map drawAll := by
  cases rows with
  | none => rfl
  | some rows =>
    simp only [rowDrawings, Option.getD_some]
    induction rows with
    | nil => rfl
    | cons row rest ih => rw [rowDrawingsOf, ih, List.map_cons]

end Widget

end PanelSkin
