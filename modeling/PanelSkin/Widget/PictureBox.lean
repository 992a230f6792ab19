import PanelSkin.Widget.Keyword
import PanelSkin.Widget.Look
import PanelSkin.Widget.Surroundings

/-!
Picture boxes. A picture with several frames plays: each frame stands for its delay, and the
last one is followed by the first, or stays.
-/

namespace PanelSkin

/-- How far a picture has played. -/
structure PlayState where
  /-- The path last drawn, if any was. -/
  path : Option String := none
  frame : Nat := 0
  frameCount : Nat := 0
  /-- How long the frame stands, in milliseconds. -/
  delay : Nat := 0
  /-- When the picture appeared or last changed its frame. -/
  lastChange : Nat := 0
  loopReached : Bool := false
  deriving DecidableEq, Repr, Inhabited

structure PictureBox where
  path : Template := {}
  loop : LoopMode := .always
  scale : Scale := .none
  state : PlayState := {}
  deriving Repr, Inhabited

namespace PlayState

/-- The state when a path is drawn; another path starts anew. -/
def showing (state : PlayState) (path : String) (now : Nat) : PlayState :=
  if state.path = some path then state else { path := some path, lastChange := now }

def isPlaying (state : PlayState) (loop : LoopMode) : Bool :=
  1 < state.frameCount &&
    match loop with
    | .never => false
    | .once => !state.loopReached
    | .always => true

/-- The state for a picture with some frames. -/
def ofFrames (state : PlayState) (count : Nat) : PlayState :=
  { state with frameCount := count, frame := if state.frame < count then state.frame else 0 }

def next (state : PlayState) (loop : LoopMode) (now : Nat) : PlayState :=
  let state := { state with lastChange := now }
  if state.frame + 1 < state.frameCount then { state with frame := state.frame + 1 }
  else if loop = .once then { state with loopReached := true }
  else { state with frame := 0 }

/-- The state after drawing a picture: one frame on if the one before has stood long enough. -/
def played (state : PlayState) (loop : LoopMode) (p : Picture) (now : Nat) : PlayState :=
  let state := state.ofFrames p.frameCount
  let state :=
    if state.isPlaying loop && p.delay state.frame ≤ now - state.lastChange then
      state.next loop now
    else state
  { state with delay := p.delay state.frame }

end PlayState

namespace PictureBox

variable {m : Type → Type} [Monad m]

/-- The path of the picture to show. -/
def pathNow (s : Surroundings m) (b : PictureBox) : m String := do
  return (← b.path.evaluate s.toLookups).asText

/-- Draws a picture. Nothing is drawn without a path, or when the picture is not there. -/
def draw (s : Surroundings m) (b : PictureBox) (look : Look) (now : Nat) :
    m (PictureBox × List DrawCall) := do
  let path ← b.pathNow s
  if path.isEmpty then return (b, [])
  let state := b.state.showing path now
  let (width, height) := b.scale.request look.box
  match ← s.picture path width height with
  | none => return ({ b with state }, [])
  | some picture =>
    let state := state.played b.loop picture now
    return ({ b with state },
      [.picture look.box.x1 look.box.y1 picture state.frame look.box])

/-- Whether drawing would show something else: another picture, or the next frame. -/
def needsUpdate (s : Surroundings m) (b : PictureBox) (now : Nat) : m Bool := do
  let path ← b.pathNow s
  if b.state.path ≠ some path then return !path.isEmpty
  else return b.state.isPlaying b.loop && b.state.delay ≤ now - b.state.lastChange

end PictureBox

end PanelSkin
