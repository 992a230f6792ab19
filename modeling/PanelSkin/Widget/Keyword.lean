import PanelSkin.Graphics.Rect

/-!
The words that widgets take as attribute values: alignment, repetition, direction and scaling.
-/

namespace PanelSkin

/-- A word that is none of those an attribute takes. -/
structure InvalidValue where
  kind : String
  value : String
  deriving DecidableEq, Repr

def InvalidValue.message (e : InvalidValue) : String := "invalid " ++ e.kind ++ " '" ++ e.value ++ "'"

/-- The meaning of a word in a table of words. -/
def readWord {α : Type} (kind : String) (table : List (String × α)) (text : String) :
    Except InvalidValue α :=
  match table.lookup text with
  | some a => .ok a
  | none => .error ⟨kind, text⟩

/-- Where text stands in its box from left to right. -/
inductive Align where
  | left
  | center
  | right
  deriving DecidableEq, Repr, Inhabited

def Align.parse : String → Except InvalidValue Align :=
  readWord "align" [("left", .left), ("center", .center), ("right", .right)]

/-- Where text stands in its box from top to bottom. -/
inductive VAlign where
  | top
  | middle
  | bottom
  deriving DecidableEq, Repr, Inhabited

def VAlign.parse : String → Except InvalidValue VAlign :=
  readWord "valign" [("top", .top), ("middle", .middle), ("center", .middle), ("bottom", .bottom)]

inductive LoopMode where
  | never
  | once
  | always
  deriving DecidableEq, Repr, Inhabited

def LoopMode.parse : String → Except InvalidValue LoopMode :=
  readWord "loop mode"
    [("never", .never), ("no", .never), ("once", .once), ("always", .always), ("yes", .always)]

/-- The direction in which a bar grows. -/
inductive Direction where
  | leftToRight
  | topToBottom
  | rightToLeft
  | bottomToTop
  deriving DecidableEq, Repr, Inhabited

namespace Direction

/-- Reads a direction, a word or a digit. -/
def parse : String → Except InvalidValue Direction :=
  readWord "direction"
    [("0", .leftToRight), ("ltr", .leftToRight), ("1", .topToBottom), ("ttb", .topToBottom),
     ("2", .rightToLeft), ("rtl", .rightToLeft), ("3", .bottomToTop), ("btt", .bottomToTop)]

def isVertical : Direction → Bool
  | .topToBottom | .bottomToTop => true
  | .leftToRight | .rightToLeft => false

/-- Whether the bar grows towards smaller coordinates. -/
def isReversed : Direction → Bool
  | .rightToLeft | .bottomToTop => true
  | .leftToRight | .topToBottom => false

end Direction

/-- Which sides of its box a picture is scaled to. -/
inductive Scale where
  | none
  | fill
  | width
  | height
  deriving DecidableEq, Repr, Inhabited

namespace Scale

def parse : String → Except InvalidValue Scale :=
  readWord "scale" [("none", .none), ("fill", .fill), ("width", .width), ("height", .height)]

/-- A side length to ask for; a box without pixels asks for none. -/
def side (n : Int) : Option Nat := if 0 < n then some n.toNat else Option.none

/-- The width and height to ask for in a box. -/
def request (s : Scale) (box : Rect) : Option Nat × Option Nat :=
  match s with
  | .none => (Option.none, Option.none)
  | .fill => (side box.width, side box.height)
  | .width => (side box.width, Option.none)
  | .height => (Option.none, side box.height)

end Scale

end PanelSkin
