import PanelSkin.Markup.Entity
import PanelSkin.Markup.Event

/-!
The scanner: one character in, a new state and the events it completes out. It keeps the names
of the open elements, so that tags which do not match are found where they stand. A document is
scanned to its end or to its first error; the events before an error are kept.

Texts under construction are kept last character first.
-/

namespace PanelSkin.Markup

/-- Re-encodes decoded text for a display with a limited set of glyphs. -/
abbrev Charset := String → String

/-- An opening tag as far as it has been read. -/
structure OpenTag where
  name : String
  attributes : Attributes := {}
  deriving DecidableEq, Repr

/-- What the next character can be part of. -/
inductive Mode where
  /-- Between tags, after some character data. -/
  | content (pending : List Char)
  | afterLess
  | tagName (name : List Char)
  | afterBang
  | afterBangDash
  | comment
  | commentDash
  | commentDashDash
  | declaration
  | declarationMark
  | beforeName (tag : OpenTag)
  | attributeName (tag : OpenTag) (name : List Char)
  | beforeValue (tag : OpenTag) (name : String) (sawEquals : Bool)
  | value (tag : OpenTag) (name : String) (quote : Char) (escaped : Bool) (pending : List Char)
  | afterSlash (tag : OpenTag)
  | afterCloseMark
  | closeName (name : List Char)
  | afterCloseName (name : String)
  deriving DecidableEq, Repr

/-- The state of a scan: line, mode and the open elements, innermost first. -/
structure Scanner where
  mode : Mode := .content []
  line : Nat := 1
  nesting : List String := []
  deriving DecidableEq, Repr

/-- Letters and the underscore start a name. -/
def isNameStart (c : Char) : Bool := c.isAlpha || c == '_'

/-- Letters, digits and the underscore continue a name. -/
def isNameChar (c : Char) : Bool := c.isAlphanum || c == '_'

/-- White space inside tags: space, tab, carriage return and line feed. -/
def isSpace (c : Char) : Bool := c == ' ' || c == '\t' || c == '\r' || c == '\n'

/-- The text of characters kept last first. -/
def textOf (reversed : List Char) : String := String.ofList reversed.reverse

namespace Scanner

/-- A step's outcome: the next mode and nesting, and the events completed. -/
structure Step where
  mode : Mode
  nesting : List String
  events : List Event := []
  deriving DecidableEq, Repr

/-- Pending character data as an event; no data is no event. -/
def flush (charset : Charset) (line : Nat) (pending : List Char) : List Event :=
  if pending.isEmpty then []
  else [.text (charset (String.ofList (decodeEntities pending.reverse))) line]

def openElement (s : Scanner) (tag : OpenTag) : Step :=
  { mode := .content [], nesting := tag.name :: s.nesting,
    events := [.start tag.name tag.attributes s.line] }

/-- Ends a tag that opens and closes its element. -/
def emptyElement (s : Scanner) (tag : OpenTag) : Step :=
  { mode := .content [], nesting := s.nesting,
    events := [.start tag.name tag.attributes s.line, .finish tag.name s.line] }

/-- Ends a closing tag, which has to name the innermost open element. -/
def closeElement (s : Scanner) (name : String) : Except SyntaxError Step :=
  match s.nesting with
  | [] => .error (.unmatchedClose name)
  | expected :: outer =>
    if expected = name then
      .ok { mode := .content [], nesting := outer, events := [.finish name s.line] }
    else .error (.mismatchedTag expected name)

/-- The step on one character, line counting aside. -/
def advance (charset : Charset) (s : Scanner) (c : Char) : Except SyntaxError Step :=
  let goto (mode : Mode) : Except SyntaxError Step := .ok { mode, nesting := s.nesting }
  let refuse (place : Place) : Except SyntaxError Step := .error (.unexpectedChar c place)
  match s.mode with
  | .content pending =>
    if c = '<' then
      .ok { mode := .afterLess, nesting := s.nesting, events := flush charset s.line pending }
    else goto (.content (c :: pending))
  | .afterLess =>
    if c = '/' then goto .afterCloseMark
    else if c = '!' then goto .afterBang
    else if c = '?' then goto .declaration
    else if isNameStart c then goto (.tagName [c])
    else refuse .afterLess
  | .tagName name =>
    if isNameChar c then goto (.tagName (c :: name))
    else if isSpace c then goto (.beforeName { name := textOf name })
    else if c = '/' then goto (.afterSlash { name := textOf name })
    else if c = '>' then .ok (s.openElement { name := textOf name })
    else refuse .tagName
  | .afterBang => if c = '-' then goto .afterBangDash else refuse .afterBang
  | .afterBangDash => if c = '-' then goto .comment else refuse .afterBangDash
  | .comment => goto (if c = '-' then .commentDash else .comment)
  | .commentDash => goto (if c = '-' then .commentDashDash else .comment)
  | .commentDashDash =>
    if c = '>' then goto (.content [])
    else goto (if c = '-' then .commentDashDash else .comment)
  | .declaration => goto (if c = '?' then .declarationMark else .declaration)
  | .declarationMark =>
    if c = '>' then goto (.content [])
    else goto (if c = '?' then .declarationMark else .declaration)
  | .beforeName tag =>
    if isSpace c then goto (.beforeName tag)
    else if c = '/' then goto (.afterSlash tag)
    else if c = '>' then .ok (s.openElement tag)
    else if isNameStart c then goto (.attributeName tag [c])
    else refuse .attributeName
  | .attributeName tag name =>
    if isNameChar c then goto (.attributeName tag (c :: name))
    else if c = '=' then goto (.beforeValue tag (textOf name) true)
    else if isSpace c then goto (.beforeValue tag (textOf name) false)
    else refuse .inAttributeName
  | .beforeValue tag name sawEquals =>
    if isSpace c then goto (.beforeValue tag name sawEquals)
    else if c = '=' ∧ sawEquals = false then goto (.beforeValue tag name true)
    else if (c = '"' ∨ c = '\'') ∧ sawEquals = true then goto (.value tag name c false [])
    else refuse .attributeValue
  | .value tag name quote escaped pending =>
    if escaped then
      if c = quote then goto (.value tag name quote false (c :: pending))
      else goto (.value tag name quote false (c :: '\\' :: pending))
    else if c = '\\' then goto (.value tag name quote true pending)
    else if c = quote then
      goto (.beforeName { tag with
        attributes := tag.attributes.insert name (charset (textOf pending)) })
    else goto (.value tag name quote false (c :: pending))
  | .afterSlash tag => if c = '>' then .ok (s.emptyElement tag) else refuse .afterSlash
  | .afterCloseMark => if isNameStart c then goto (.closeName [c]) else refuse .afterCloseMark
  | .closeName name =>
    if isNameChar c then goto (.closeName (c :: name))
    else if isSpace c then goto (.afterCloseName (textOf name))
    else if c = '>' then s.closeElement (textOf name)
    else refuse .closingTag
  | .afterCloseName name =>
    if c = '>' then s.closeElement name
    else if isSpace c then goto (.afterCloseName name)
    else refuse .closingTag

/-- One character: the new state and the events it completes, or the error it is. -/
def step (charset : Charset) (s : Scanner) (c : Char) : Except SyntaxError (Scanner × List Event) :=
  match s.advance charset c with
  | .error cause => .error cause
  | .ok next =>
    .ok ({ mode := next.mode, nesting := next.nesting,
           line := if c = '\n' then s.line + 1 else s.line }, next.events)

/-- The end of the input: it has to be outside tags, with no element open. -/
def finish (charset : Charset) (s : Scanner) : Except SyntaxError (List Event) :=
  match s.mode with
  | .content pending =>
    match s.nesting with
    | tag :: _ => .error (.unclosed tag)
    | [] => .ok (flush charset s.line pending)
  | _ => .error .unexpectedEnd

end Scanner

/-- What a scan finds: the events in document order, and the error that ended it with its
line. -/
structure Scan where
  events : List Event
  failure : Option (Nat × SyntaxError)
  deriving DecidableEq, Repr

/-- Scans on from a state to the end of the input. -/
def Scanner.run (charset : Charset) (s : Scanner) : List Char → Scan
  | [] =>
    match s.finish charset with
    | .ok events => ⟨events, none⟩
    | .error cause => ⟨[], some (s.line, cause)⟩
  | c :: rest =>
    match s.step charset c with
    | .error cause => ⟨[], some (s.line, cause)⟩
    | .ok (next, events) =>
      let scan := next.run charset rest
      ⟨events ++ scan.events, scan.failure⟩

def scan (charset : Charset) (document : List Char) : Scan :=
  Scanner.run charset {} document

end PanelSkin.Markup
