import PanelSkin.Graphics.Shape
import PanelSkin.Graphics.TextRun
import PanelSkin.Picture.Basic

/-!
Drawing as data: a call names a primitive and its arguments, and stands for the colored pixels
it paints inside the bounds of a surface, in order.
-/

namespace PanelSkin

inductive DrawCall where
  | pixel (x y : Int) (color : Color)
  | line (line : Line) (color : Color)
  | rectangle (rect : Rect) (color : Color) (filled : Bool)
  | roundRectangle (rect : Rect) (color : Color) (filled : Bool) (radius : Int)
  | ellipse (rect : Rect) (color : Color) (filled : Bool) (quadrant : Int)
  | slope (rect : Rect) (color : Color) (kind : Int)
  | picture (x y : Int) (picture : Picture) (frame : Nat) (clip : Rect)
  | text (run : TextRun)

namespace DrawCall

/-- The pixels of a picture's frame that show inside `clip`, row by row. -/
def pictureDots (x y : Int) (p : Picture) (frame : Nat) (clip : Rect) : List Dot :=
  (List.range p.height).flatMap fun (row : Nat) => (List.range p.width).filterMap fun (column : Nat) =>
    let px := x + (column : Int)
    let py := y + (row : Int)
    if clip.contains px py then
      match p.pixel? frame column row with
      | some color => if color.isTransparent then none else some ⟨px, py, color⟩
      | none => none
    else none

/-- What a call paints on a surface with some bounds. -/
def dots (bounds : Rect) : DrawCall → List Dot
  | .pixel x y color => [⟨x, y, color⟩]
  | .line l color => (l.points bounds).map fun p => ⟨p.x, p.y, color⟩
  | .rectangle r color filled => (r.drawn filled bounds).map fun p => ⟨p.x, p.y, color⟩
  | .roundRectangle r color filled radius =>
    (r.drawnRounded filled radius bounds).map fun p => ⟨p.x, p.y, color⟩
  | .ellipse r color filled quadrant =>
    (r.drawnEllipse filled quadrant bounds).map fun p => ⟨p.x, p.y, color⟩
  | .slope r color kind => (r.drawnSlope kind bounds).map fun p => ⟨p.x, p.y, color⟩
  | .picture x y p frame clip => pictureDots x y p frame clip
  | .text run => run.dots

/-- Whether the radius and the test for the inside of a shape let a call be carried out on a surface
with some bounds. They do not where the limits of the radius are out of order, or where the test
comes to nothing; then the drawing breaks off. -/
def completes (bounds : Rect) : DrawCall → Bool
  | .roundRectangle r _ _ radius => (r.effectiveRadius? radius).isSome
  | .ellipse r _ filled quadrant =>
    r.isEmpty || ((r.elliptic quadrant).points? r filled bounds).isSome
  | _ => true

end DrawCall

end PanelSkin
