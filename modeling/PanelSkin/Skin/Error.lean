import PanelSkin.Expr.Error
import PanelSkin.Font.Spec
import PanelSkin.Markup.Delivery

/-!
What can be wrong with a skin: its files, their markup, and what the markup says.
-/

namespace PanelSkin

/-- Where an element was met that cannot stand there. -/
inductive ElementPlace where
  | afterHeader
  | beforeHeader
  | insideDisplay
  | outsideDisplay
  | amongWidgets
  | insideLeaf
  | afterListStart
  | outsideList
  deriving DecidableEq, Repr

/-- The words for a place in an error message. -/
def ElementPlace.words : ElementPlace → String
  | .afterHeader => "after the skin header"
  | .beforeHeader => "before <skin>"
  | .insideDisplay => "inside a display"
  | .outsideDisplay => "outside a display"
  | .amongWidgets => "in a display"
  | .insideLeaf => "inside a non-container object"
  | .afterListStart => "outside the start of a list"
  | .outsideList => "outside a list"

/-- The newest version of skins that can be read, major and minor number. -/
def supportedVersion : Nat × Nat := (1, 1)

/-- Why what a document says is no skin. -/
inductive LoadError where
  | expr (cause : ExprError)
  | font (cause : FontError)
  | unsupportedVersion (found : String)
  /-- An included file cannot be read, or is no part of a skin. -/
  | inInclude (path : FilePath) (cause : Markup.ParseError LoadError)
  /-- Files include each other more than `limit` deep. -/
  | includeDepth (path : FilePath) (limit : Nat)
  | missingAttribute (tag name : String)
  | invalidAttribute (tag name value : String)
  | unexpectedTag (tag : String) (place : ElementPlace)
  | missingItem
  /-- An expression has no outcome: a font asks for itself. -/
  | endless
  deriving Repr

def LoadError.message : LoadError → String
  | .expr cause => cause.message
  | .font cause => cause.message
  | .unsupportedVersion found =>
    "unsupported skin version '" ++ found ++ "', expected " ++ toString supportedVersion.1 ++ "."
      ++ toString supportedVersion.2 ++ " or lower"
  | .inInclude path (.refused line cause) =>
    "in include " ++ path.text ++ ": line " ++ toString line ++ ": " ++ cause.message
  | .inInclude path (.malformed line cause) =>
    "in include " ++ path.text ++ ": line " ++ toString line ++ ": " ++ cause.message
  | .inInclude path (.unreadable file cause) =>
    "in include " ++ path.text ++ ": cannot read " ++ file.text ++ ": " ++ cause.message
  | .includeDepth path limit =>
    "include " ++ path.text ++ " nested deeper than " ++ toString limit
  | .missingAttribute tag name => "<" ++ tag ++ "> requires attribute '" ++ name ++ "'"
  | .invalidAttribute tag name value =>
    "<" ++ tag ++ "> has invalid " ++ name ++ "=\"" ++ value ++ "\""
  | .unexpectedTag tag place => "unexpected <" ++ tag ++ "> " ++ place.words
  | .missingItem => "<list> must start with an <item>"
  | .endless => "an expression has no outcome"

/-- Why a skin cannot be loaded or shown. -/
inductive SkinError where
  | document (cause : Markup.ParseError LoadError)
  | noSkin
  | unknownDisplay (id : String)
  deriving Repr

/-- The line in the skin file that the error was met on. -/
def SkinError.line? : SkinError → Option Nat
  | .document cause => cause.line?
  | .noSkin | .unknownDisplay _ => none

def SkinError.message : SkinError → String
  | .document cause => cause.message LoadError.message
  | .noSkin => "document has no <skin> element"
  | .unknownDisplay id => "unknown display '" ++ id ++ "'"

end PanelSkin
