import PanelSkin.Widget.Look
import PanelSkin.Widget.Paragraph
import PanelSkin.Widget.Surroundings

/-!
Text boxes and buttons. A text that is wider than its box can scroll: step by step it moves to
the left, followed by a separator and itself, until it has come back to where it started. It
goes round for ever, or stops after one round.
-/

namespace PanelSkin

/-- How far a text has scrolled. -/
structure ScrollState where
  /-- The text last drawn, if any was. -/
  content : Option String := none
  offset : Int := 0
  /-- When the text appeared or last moved. -/
  lastChange : Nat := 0
  scrolling : Bool := false
  /-- The round is over, or none was needed. -/
  loopReached : Bool := false
  deriving DecidableEq, Repr, Inhabited

structure TextBox where
  font : String
  text : Template := {}
  align : Align := .left
  valign : VAlign := .top
  multiline : Bool := false
  scroll : LoopMode := .never
  /-- Pixels in a step. -/
  speed : Int := 1
  /-- Milliseconds between steps. -/
  pause : Nat := 100
  state : ScrollState := {}
  deriving Repr, Inhabited

namespace ScrollState

/-- The state when a text is drawn; another text starts anew. -/
def showing (state : ScrollState) (content : String) (now : Nat) : ScrollState :=
  if state.content = some content then state else { content := some content, lastChange := now }

/-- The state when there is nothing to scroll. -/
def atRest (state : ScrollState) : ScrollState :=
  { state with scrolling := false, loopReached := true }

def isDue (state : ScrollState) (pause now : Nat) : Bool :=
  !state.loopReached && pause ≤ now - state.lastChange

/-- The state one step on; `cycle` is the length of a round. -/
def step (state : ScrollState) (scroll : LoopMode) (speed cycle : Int) (now : Nat) :
    ScrollState :=
  let offset := state.offset + max speed 1
  let state := { state with lastChange := now }
  if offset < cycle then { state with offset }
  else if scroll = .once then { state with offset := 0, loopReached := true }
  else { state with offset := offset - cycle }

end ScrollState

namespace TextBox

/-- The pixels between the starts of a scrolling text and of its repetition. -/
def cycle (face : Face) (content separator : String) : Int :=
  face.textWidth content + face.textWidth separator

/-- A text with spaces for tabs. -/
def flat (content : String) : List Char :=
  content.toList.map fun c => if c = '\t' then ' ' else c

/-- The text that passes by: itself, the separator, and itself again. -/
def looped (content separator : String) : List Char :=
  flat content ++ separator.toList ++ flat content

/-- Whether a text has to scroll in a box. -/
def mustScroll (t : TextBox) (face : Face) (content : String) (box : Rect) : Bool :=
  box.width < face.textWidth content && t.scroll ≠ .never

/-- The state after drawing a text that has to scroll. -/
def scrolled (t : TextBox) (state : ScrollState) (cycle : Int) (now : Nat) : ScrollState :=
  let state := { state with scrolling := true }
  if state.isDue t.pause now then state.step t.scroll t.speed cycle now else state

/-- A scrolling text at its offset. A round that is over leaves the text alone at its start. -/
def scrollRun (t : Typesetting) (state : ScrollState) (y : Int) (content separator : String) :
    TextRun :=
  if state.loopReached then t.runAt t.box.x1 y (flat content)
  else { t.runAt t.box.x1 y (looped content separator) with skip := state.offset }

/-- The state after drawing a text, and the lines of text drawn. -/
def compose (t : TextBox) (setting : Typesetting) (separator : String) (state : ScrollState)
    (content : String) (now : Nat) : ScrollState × List TextRun :=
  let face := setting.face
  let y := t.valign.topIn setting.box face.totalHeight
  if t.multiline then
    ({ state with loopReached := true }, setting.wrapped t.align t.valign content.toList)
  else if t.mustScroll face content setting.box then
    let state := t.scrolled state (cycle face content separator) now
    (state, [scrollRun setting state y content separator])
  else (state.atRest, setting.line t.align y content.toList)

variable {m : Type → Type} [Monad m]

def content (s : Surroundings m) (t : TextBox) : m String := do
  return (← t.text.evaluate s.toLookups).asText

/-- Draws a text. Without its font nothing is drawn, and nothing scrolls. -/
def draw (s : Surroundings m) (t : TextBox) (look : Look) (now : Nat) :
    m (TextBox × List DrawCall) := do
  let content ← t.content s
  let state := t.state.showing content now
  match ← s.font t.font with
  | none => return ({ t with state := state.atRest }, [])
  | some face =>
    let setting : Typesetting := { face, color := look.color, box := look.box, tabStop := s.tabStop }
    let (state, runs) := t.compose setting s.separator state content now
    return ({ t with state }, look.backdrop ++ runs.map .text)

/-- Whether drawing would show something else: another text, or the next step. -/
def needsUpdate (s : Surroundings m) (t : TextBox) (now : Nat) : m Bool := do
  let content ← t.content s
  return t.state.content ≠ some content || (t.state.scrolling && t.state.isDue t.pause now)

end TextBox

/-- A framed text in the middle of its box. -/
structure Button where
  font : String
  text : Template := {}
  radius : Expr := .number 0
  deriving Repr, Inhabited

namespace Button

def inner (box : Rect) : Rect := ⟨box.x1 + 1, box.y1 + 1, box.x2 - 1, box.y2 - 1⟩

/-- The frame, and the background inside it if that shows. -/
def frame (look : Look) (radius : Int) : List DrawCall :=
  (if look.background.isTransparent then []
    else [.roundRectangle look.box look.background true radius])
    ++ [.roundRectangle look.box look.color false radius]

variable {m : Type → Type} [Monad m]

/-- Draws a button. Without its font there is the frame only. -/
def draw (s : Surroundings m) (b : Button) (look : Look) : m (List DrawCall) := do
  let radius ← b.radius.evaluateWord s.toLookups
  match ← s.font b.font with
  | none => return frame look radius
  | some face =>
    let label := (← b.text.evaluate s.toLookups).asText
    let setting : Typesetting :=
      { face, color := look.color, box := inner look.box, tabStop := s.tabStop }
    let y := VAlign.middle.topIn setting.box face.totalHeight
    return frame look radius ++ (setting.line .center y label.toList).map .text

end Button

end PanelSkin
