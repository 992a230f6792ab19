import PanelSkin.Widget.Keyword
import PanelSkin.Widget.Look

/-!
Progress bars and scroll bars. A bar grows from one side of its box. A progress bar is filled in
proportion to a value out of a total; a scroll bar has a thumb on a line, which moves with the
value and is the smaller the larger the total.
-/

namespace PanelSkin

/-- A progress bar or a scroll bar. -/
structure Bar where
  direction : Direction := .leftToRight
  current : Expr
  total : Expr
  /-- The value that a progress bar marks with a line. -/
  peak : Option Expr := none
  deriving Repr

namespace Direction

/-- The extent of a box in the direction of growth. -/
def extentOf (d : Direction) (box : Rect) : Int := if d.isVertical then box.height else box.width

/-- The strip across a box from `start` for `length` pixels, counted from the side on which the
bar starts to grow. -/
def strip (d : Direction) (box : Rect) (start length : Int) : Rect :=
  let last := start + length - 1
  match d with
  | .leftToRight => ⟨box.x1 + start, box.y1, box.x1 + last, box.y2⟩
  | .rightToLeft => ⟨box.x2 - last, box.y1, box.x2 - start, box.y2⟩
  | .topToBottom => ⟨box.x1, box.y1 + start, box.x2, box.y1 + last⟩
  | .bottomToTop => ⟨box.x1, box.y2 - last, box.x2, box.y2 - start⟩

/-- The line along the middle of a box. -/
def track (d : Direction) (box : Rect) : Line :=
  if d.isVertical then
    let x := box.x1 + box.width.tdiv 2
    ⟨x, box.y1, x, box.y2⟩
  else
    let y := box.y1 + box.height.tdiv 2
    ⟨box.x1, y, box.x2, y⟩

end Direction

namespace Bar

/-- The part of an extent that a value is of a total; values are held between zero and the
total. -/
def portion (extent value total : Int) : Int := (extent * max 0 (min value total)).tdiv total

/-- The strip that is filled for a value. -/
def filled (d : Direction) (box : Rect) (value total : Int) : Option Rect :=
  let length := portion (d.extentOf box) value total
  if 0 < length then some (d.strip box 0 length) else none

/-- The strip that marks a value: the last pixel of what would be filled. -/
def marker (d : Direction) (box : Rect) (value total : Int) : Option Rect :=
  let length := portion (d.extentOf box) value total
  if 0 < length then some (d.strip box (length - 1) 1) else none

/-- The length of the thumb of a scroll bar. -/
def thumbLength (extent total : Int) : Int := max 1 (extent.tdiv (total + 1))

def thumb (d : Direction) (box : Rect) (value total : Int) : Rect :=
  let total := max 0 total
  let extent := d.extentOf box
  let length := thumbLength extent total
  let start := if total = 0 then 0 else portion (extent - length) value total
  d.strip box start length

variable {m : Type → Type} [Monad m]

/-- A filled rectangle for a strip that is there. -/
def painted (color : Color) (strip : Option Rect) : List DrawCall :=
  strip.toList.map (.rectangle · color true)

/-- Draws a progress bar. Without a positive total there is nothing to fill. -/
def drawProgress (lookups : Lookups m) (b : Bar) (look : Look) : m (List DrawCall) := do
  let total := (← b.total.evaluateNumber lookups).toInt
  if total ≤ 0 then return look.backdrop
  let current := (← b.current.evaluateNumber lookups).toInt
  let fill := painted look.color (filled b.direction look.box current total)
  match b.peak with
  | none => return look.backdrop ++ fill
  | some peak =>
    let peak := (← peak.evaluateNumber lookups).toInt
    return look.backdrop ++ fill ++ painted look.color (marker b.direction look.box peak total)

/-- Draws a scroll bar. A box without pixels has none. -/
def drawScrollbar (lookups : Lookups m) (b : Bar) (look : Look) : m (List DrawCall) := do
  if b.direction.extentOf look.box ≤ 0 then return look.backdrop
  let total := (← b.total.evaluateNumber lookups).toInt
  let current := (← b.current.evaluateNumber lookups).toInt
  return look.backdrop ++ [.line (b.direction.track look.box) look.color,
    .rectangle (thumb b.direction look.box current total) look.color true]

end Bar

end PanelSkin
