import PanelSkin.Graphics.DrawCall
import PanelSkin.Widget.Keyword

/-!
Text in a box: breaking it into lines, placing lines, and splitting a line into columns at its
tabs. Lines are broken at line feeds and, greedily, at spaces; a word that is wider than the box
has a line of its own.
-/

namespace PanelSkin

namespace Face

/-- The words of a paragraph: what stands between spaces. -/
def words (paragraph : List Char) : List (List Char) :=
  (paragraph.splitOn ' ').filter (!·.isEmpty)

/-- Breaks words into lines, of which one is begun. -/
def fillLines (f : Face) (width : Int) (line : List Char) : List (List Char) → List (List Char)
  | [] => [line]
  | word :: rest =>
    if line.isEmpty then f.fillLines width word rest
    else if f.widthOf (line ++ ' ' :: word) ≤ width then
      f.fillLines width (line ++ ' ' :: word) rest
    else line :: f.fillLines width word rest

/-- The lines of a paragraph; one at least. -/
def breakParagraph (f : Face) (width : Int) (paragraph : List Char) : List (List Char) :=
  f.fillLines width [] (words paragraph)

def wrap (f : Face) (width : Int) (text : List Char) : List (List Char) :=
  (text.splitOn '\n').flatMap (f.breakParagraph width)

/-- How many lines of wrapped text a box shows; one at least. -/
def lineLimit (f : Face) (box : Rect) : Nat := (max 1 (box.height.tdiv (max 1 f.lineHeight))).toNat

def linesHeight (f : Face) (count : Nat) : Int :=
  f.totalHeight + max 0 ((count : Int) - 1) * f.lineHeight

end Face

/-- The upper edge of something of a height in a box. What does not fit starts at the top. -/
def VAlign.topIn (v : VAlign) (box : Rect) (height : Int) : Int :=
  match v with
  | .top => box.y1
  | .middle => box.y1 + max 0 ((box.height - height).tdiv 2)
  | .bottom => max box.y1 (box.y2 - height + 1)

/-- The left edge of something of a width in a box. What does not fit starts at the left. -/
def Align.leftIn (a : Align) (box : Rect) (width : Int) : Int :=
  match a with
  | .left => box.x1
  | .center => box.x1 + max 0 ((box.width - width).tdiv 2)
  | .right => max box.x1 (box.x2 - width + 1)

/-- What a line of text is drawn with. -/
structure Typesetting where
  face : Face
  color : Color
  box : Rect
  /-- The column of a tab stop in a box of some width. -/
  tabStop : Nat → Int → Option Int

namespace Typesetting

/-- A line of text that starts at some pixel. -/
def runAt (t : Typesetting) (x y : Int) (text : List Char) : TextRun :=
  { x, y, maxX := t.box.x2, text := String.ofList text, face := t.face, color := t.color }

/-- Where the column after a tab starts when the one before it ends at `x`: at its tab stop if
that lies further right, or one space on if there is no stop. -/
def columnStart (t : Typesetting) (tab : Nat) (x : Int) : Int :=
  match t.tabStop tab t.box.width with
  | some stop => max (t.box.x1 + stop) x
  | none => x + t.face.charWidth ' '

/-- The columns after a tab, from the end of the one before it; those that start right of the
box are left out. -/
def columnsFrom (t : Typesetting) (y : Int) (tab : Nat) (x : Int) :
    List (List Char) → List TextRun
  | [] => []
  | column :: rest =>
    let start := t.columnStart tab x
    if t.box.x2 < start then []
    else
      let run := t.runAt start y column
      run :: t.columnsFrom y (tab + 1) (start + run.width) rest

/-- The columns of a line with tabs. -/
def columns (t : Typesetting) (y : Int) : List (List Char) → List TextRun
  | [] => []
  | column :: rest =>
    if t.box.x2 < t.box.x1 then []
    else
      let run := t.runAt t.box.x1 y column
      run :: t.columnsFrom y 0 (t.box.x1 + run.width) rest

/-- One line of text at some height; a line with tabs is not aligned. -/
def line (t : Typesetting) (align : Align) (y : Int) (text : List Char) : List TextRun :=
  if text.contains '\t' then t.columns y (text.splitOn '\t')
  else [t.runAt (align.leftIn t.box (t.face.widthOf text)) y text]

/-- Lines of text one under the other. -/
def stack (t : Typesetting) (align : Align) (y : Int) : List (List Char) → List TextRun
  | [] => []
  | text :: rest => t.line align y text ++ t.stack align (y + t.face.lineHeight) rest

/-- A text wrapped in its box, as far as lines fit. -/
def wrapped (t : Typesetting) (align : Align) (valign : VAlign) (text : List Char) :
    List TextRun :=
  let lines := (t.face.wrap t.box.width text).take (t.face.lineLimit t.box)
  t.stack align (valign.topIn t.box (t.face.linesHeight lines.length)) lines

end Typesetting

end PanelSkin
