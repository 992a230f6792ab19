import PanelSkin.Expr.Error
import PanelSkin.Expr.Lookups

/-!
Templates: text with tokens in braces. `\x7bname\x7d` and `\x7bname:suffix\x7d` are tokens
of the host, `\x7b#id\x7d` is a variable; names of tokens are checked when a template is read,
values are fetched on every evaluation. A template that is nothing but `#id` stands for the
text of that variable, read in its place.
-/

namespace PanelSkin

inductive Segment where
  | literal (text : String)
  | token (token : Token)
  | reference (id : String)
  deriving DecidableEq, Repr

/-- A template, piece by piece. -/
structure Template where
  segments : List Segment := []
  deriving DecidableEq, Repr, Inhabited

/-- Letters and the underscore start an identifier. -/
def isIdentifierStart (c : Char) : Bool := c.isAlpha || c == '_'

/-- Letters, digits and the underscore continue an identifier. -/
def isIdentifierChar (c : Char) : Bool := c.isAlphanum || c == '_'

def isIdentifier : List Char → Bool
  | [] => false
  | c :: rest => isIdentifierStart c && rest.all isIdentifierChar

/-- The identifier `id` of a text `#id`. -/
def wholeReference? : List Char → Option String
  | '#' :: id => if isIdentifier id then some (String.ofList id) else none
  | _ => none

/-- The suffix written after a token's colon. -/
def TokenSuffix.ofText (s : List Char) : TokenSuffix :=
  if s = "clean".toList then .clean
  else if s = "rest".toList then .rest
  else match Text.readInt64 s with
    | some n => .number (Int64.ofInt n)
    | none => .text (String.ofList s)

namespace Template

def segmentOf (tokenId : String → Option Nat) (body : List Char) : Except ExprError Segment :=
  let name := body.takeWhile (· != ':')
  let suffix := match body.dropWhile (· != ':') with
    | [] => TokenSuffix.absent
    | _ :: text => .ofText text
  match name with
  | '#' :: id => .ok (.reference (String.ofList id))
  | _ =>
    match tokenId (String.ofList name) with
    | some id => .ok (.token { name := String.ofList name, id, suffix })
    | none => .error (.unknownToken (String.ofList name))

/-- Literal text, kept last character first, as a segment; no text is no segment. -/
def literalSegment (pending : List Char) : List Segment :=
  if pending.isEmpty then [] else [.literal (String.ofList pending.reverse)]

/-- Reads segments from a place in `whole`: outside braces after some literal text, or inside
braces after some text of the token. -/
def readSegments (tokenId : String → Option Nat) (whole : String) (pending : List Char) :
    Option (List Char) → List Char → Except ExprError (List Segment)
  | none, [] => .ok (literalSegment pending)
  | some _, [] => .error (.unterminatedToken whole)
  | none, c :: rest =>
    if c = '{' then readSegments tokenId whole pending (some []) rest
    else readSegments tokenId whole (c :: pending) none rest
  | some body, c :: rest =>
    if c = '{' then .error (.unterminatedToken whole)
    else if c = '}' then
      if body.isEmpty then .error (.emptyToken whole)
      else do
        let segment ← segmentOf tokenId body.reverse
        let segments ← readSegments tokenId whole [] none rest
        return literalSegment pending ++ segment :: segments
    else readSegments tokenId whole pending (some (c :: body)) rest

/-- Reads a text with tokens in braces. -/
def readTokens (tokenId : String → Option Nat) (text : String) : Except ExprError Template :=
  (readSegments tokenId text [] none text.toList).map Template.mk

def literal (text : String) : Template := ⟨if text.isEmpty then [] else [.literal text]⟩

/-- The text of a template without tokens and variables. -/
def asLiteral? (t : Template) : Option String :=
  match t.segments with
  | [] => some ""
  | [.literal text] => some text
  | _ => none

def isEmpty (t : Template) : Bool := t.segments.isEmpty

/-- The tokens of a template, in order. -/
def tokens (t : Template) : List Token :=
  t.segments.filterMap fun
    | .token t => some t
    | _ => none

variable {m : Type → Type} [Monad m]

/-- Reads a template; a text that is exactly `#id` is replaced by the variable's text first. -/
def parse (lookups : Lookups m) (text : String) : m (Except ExprError Template) :=
  match wholeReference? text.toList with
  | none => pure (readTokens lookups.tokenId text)
  | some id => do
    match ← lookups.variableText id with
    | some resolved => pure (readTokens lookups.tokenId resolved)
    | none => pure (.error (.unknownVariable id))

end Template

variable {m : Type → Type} [Monad m]

/-- The value of one segment; a variable that is not there is false. -/
def Segment.value (lookups : Lookups m) : Segment → m Value
  | .literal text => pure (.text text)
  | .token t => lookups.token t
  | .reference id => do return (← lookups.variableValue id).getD (.boolean false)

/-- The texts of segments in order, joined. -/
def Segment.joined (lookups : Lookups m) : List Segment → m String
  | [] => pure ""
  | segment :: rest => do
    let value ← segment.value lookups
    let text ← joined lookups rest
    return value.asText ++ text

/-- The value of a template. A template of exactly one segment keeps that segment's type. -/
def Template.evaluate (lookups : Lookups m) (t : Template) : m Value :=
  match t.segments with
  | [] => pure (.text "")
  | [segment] => segment.value lookups
  | segments => do return .text (← Segment.joined lookups segments)

end PanelSkin
