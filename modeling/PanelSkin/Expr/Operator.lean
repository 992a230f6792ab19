/-!
The operators of expressions, their names, and how many arguments each takes. Names are exact,
upper and lower case included.
-/

namespace PanelSkin

inductive Arity where
  | exactly (n : Nat)
  | atLeast (n : Nat)
  deriving DecidableEq, Repr

def Arity.accepts : Arity → Nat → Bool
  | .exactly n, count => count == n
  | .atLeast n, count => n ≤ count

def Arity.words : Arity → String
  | .exactly n => "exactly " ++ toString n
  | .atLeast n => "at least " ++ toString n

inductive Relation where
  | equal
  | eq
  | gt
  | lt
  | ge
  | le
  | ne
  deriving DecidableEq, Repr

/-- Whether values in this order stand in the relation. -/
def Relation.holds : Relation → Ordering → Bool
  | .equal, o | .eq, o => o == .eq
  | .ne, o => o != .eq
  | .gt, o => o == .gt
  | .lt, o => o == .lt
  | .ge, o => o != .lt
  | .le, o => o != .gt

inductive FontMetric where
  | totalWidth
  | totalHeight
  | totalAscent
  | spaceBetween
  | lineHeight
  deriving DecidableEq, Repr

/-- A side of a box that text or a picture takes up. -/
inductive Extent where
  | width
  | height
  deriving DecidableEq, Repr

inductive Operator where
  | not
  | and
  | or
  | compare (relation : Relation)
  | file
  | trans
  | add
  | sub
  | mul
  | div
  | fontMetric (metric : FontMetric)
  | textExtent (extent : Extent)
  | pictureSide (extent : Extent)
  | queryFeature
  deriving DecidableEq, Repr

namespace Operator

def all : List Operator :=
  [.not, .and, .or, .compare .equal, .compare .eq, .compare .gt, .compare .lt, .compare .ge,
   .compare .le, .compare .ne, .file, .trans, .add, .sub, .mul, .div,
   .fontMetric .totalWidth, .fontMetric .totalHeight, .fontMetric .totalAscent,
   .fontMetric .spaceBetween, .fontMetric .lineHeight, .textExtent .width, .textExtent .height,
   .pictureSide .width, .pictureSide .height, .queryFeature]

/-- The name an operator is called by. -/
def name : Operator → String
  | .not => "not"
  | .and => "and"
  | .or => "or"
  | .compare .equal => "equal"
  | .compare .eq => "eq"
  | .compare .gt => "gt"
  | .compare .lt => "lt"
  | .compare .ge => "ge"
  | .compare .le => "le"
  | .compare .ne => "ne"
  | .file => "file"
  | .trans => "trans"
  | .add => "add"
  | .sub => "sub"
  | .mul => "mul"
  | .div => "div"
  | .fontMetric .totalWidth => "FontTotalWidth"
  | .fontMetric .totalHeight => "FontTotalHeight"
  | .fontMetric .totalAscent => "FontTotalAscent"
  | .fontMetric .spaceBetween => "FontSpaceBetween"
  | .fontMetric .lineHeight => "FontLineHeight"
  | .textExtent .width => "FontTextWidth"
  | .textExtent .height => "FontTextHeight"
  | .pictureSide .width => "ImageWidth"
  | .pictureSide .height => "ImageHeight"
  | .queryFeature => "QueryFeature"

def ofName? (name : String) : Option Operator := all.find? (·.name == name)

def arity : Operator → Arity
  | .and | .or | .add | .sub | .mul => .atLeast 1
  | .compare _ | .div | .textExtent _ => .exactly 2
  | .not | .file | .trans | .fontMetric _ | .pictureSide _ | .queryFeature => .exactly 1

theorem mem_all (op : Operator) : op ∈ all := by
  cases op with
  | compare r => cases r <;> decide
  | fontMetric m => cases m <;> decide
  | textExtent e => cases e <;> decide
  | pictureSide e => cases e <;> decide
  | _ => decide

theorem ofName?_name (op : Operator) : ofName? op.name = some op := by
  cases op with
  | compare r => cases r <;> decide
  | fontMetric m => cases m <;> decide
  | textExtent e => cases e <;> decide
  | pictureSide e => cases e <;> decide
  | _ => decide

end Operator

end PanelSkin
