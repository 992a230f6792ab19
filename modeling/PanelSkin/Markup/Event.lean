import PanelSkin.Markup.Attributes

/-!
What a document says, piece by piece: the events a reader receives in document order, and the
ways in which a document can fail to be well formed. Lines count from one.
-/

namespace PanelSkin.Markup

/-- One event, with the line of the character that completes it. An element written `<a/>` has
a start and a finish. -/
inductive Event where
  | start (tag : String) (attributes : Attributes) (line : Nat)
  | finish (tag : String) (line : Nat)
  | text (content : String) (line : Nat)
  deriving DecidableEq, Repr, Inhabited

/-- The line an event is reported on. -/
def Event.line : Event → Nat
  | .start _ _ line | .finish _ line | .text _ line => line

/-- Where a character was met that cannot stand there. -/
inductive Place where
  | afterLess
  | tagName
  | afterBang
  | afterBangDash
  | attributeName
  | inAttributeName
  | attributeValue
  | afterSlash
  | afterCloseMark
  | closingTag
  deriving DecidableEq, Repr

/-- The words for a place in an error message. -/
def Place.words : Place → String
  | .afterLess => "after '<'"
  | .tagName => "in tag name"
  | .afterBang => "after '<!'"
  | .afterBangDash => "after '<!-'"
  | .attributeName => "where an attribute name was expected"
  | .inAttributeName => "in attribute name"
  | .attributeValue => "where an attribute value was expected"
  | .afterSlash => "after '/' in tag"
  | .afterCloseMark => "after '</'"
  | .closingTag => "in closing tag"

/-- Why a document is not well formed. -/
inductive SyntaxError where
  | unexpectedChar (found : Char) (place : Place)
  | mismatchedTag (expected found : String)
  | unmatchedClose (tag : String)
  | unclosed (tag : String)
  | unexpectedEnd
  deriving DecidableEq, Repr

def SyntaxError.message : SyntaxError → String
  | .unexpectedChar found place => "unexpected character '" ++ found.toString ++ "' " ++ place.words
  | .mismatchedTag expected found =>
    "closing tag </" ++ found ++ "> does not match <" ++ expected ++ ">"
  | .unmatchedClose tag => "closing tag </" ++ tag ++ "> without an open element"
  | .unclosed tag => "element <" ++ tag ++ "> is never closed"
  | .unexpectedEnd => "unexpected end of input"

end PanelSkin.Markup
