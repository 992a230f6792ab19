import PanelSkin.Expr.Operator
import PanelSkin.Expr.Value

/-!
What expressions look up. Everything outside an expression is reached through one record of
lookups in a monad of the surroundings' choice, so that evaluation says which lookups it makes
and in which order, and nothing else.
-/

namespace PanelSkin

/-- The part of a token after its colon. -/
inductive TokenSuffix where
  | absent
  | clean
  | rest
  | number (n : Int64)
  | text (s : String)
  deriving DecidableEq, Repr

/-- A reference to a datum of the host, with the id the host gave to its name. -/
structure Token where
  name : String
  id : Nat
  suffix : TokenSuffix := .absent
  deriving DecidableEq, Repr

/-- The host's time, and the reference times of variables kept until a tick or a switch; in
milliseconds. -/
structure Clock where
  now : Nat := 0
  tick : Nat := 0
  switch : Nat := 0
  deriving DecidableEq, Repr

/-- The lookups an expression can make. `none` stands for what is not there: it is an error
when a template is read, and false when an expression is evaluated. -/
structure Lookups (m : Type → Type) where
  /-- The host's id of a token name. -/
  tokenId : String → Option Nat
  /-- The text of a variable, while a template is read. -/
  variableText : String → m (Option String)
  /-- The value of a token. -/
  token : Token → m Value
  /-- The value of a variable. -/
  variableValue : String → m (Option Value)
  /-- A text in the host's language. -/
  translate : String → m String
  /-- A measure of the font with an id. -/
  fontMetric : String → FontMetric → m (Option Int)
  /-- The extent of a text in the font with an id. -/
  textExtent : String → String → Extent → m (Option Int)
  /-- The width and height of the picture at a path. -/
  pictureSize : String → m (Option (Nat × Nat))
  /-- A capability of the display. -/
  feature : String → m (Option Int)
  /-- The times. -/
  clock : Clock

end PanelSkin
