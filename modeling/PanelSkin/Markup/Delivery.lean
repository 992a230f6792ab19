import PanelSkin.Files.FileTree
import PanelSkin.Markup.Scanner
import PanelSkin.Text.Utf8

/-!
Events to a receiver, in document order, until it refuses one or the document ends. A receiver
is a function from an event and a state to a new state or a refusal; nothing is delivered after
a refusal, and an error of the document itself is met only by a receiver that took every event
before it.
-/

namespace PanelSkin.Markup

/-- Why reading a document failed: the receiver's refusal, the document's own error, or a file
that cannot be read. -/
inductive ParseError (ε : Type) where
  | malformed (line : Nat) (cause : SyntaxError)
  | refused (line : Nat) (cause : ε)
  | unreadable (path : FilePath) (cause : FileError)
  deriving Repr

/-- The line the error was met on, if it came from the document. -/
def ParseError.line? {ε : Type} : ParseError ε → Option Nat
  | .malformed line _ | .refused line _ => some line
  | .unreadable _ _ => none

/-- The text of a read error, given the words for a refusal. -/
def ParseError.message {ε : Type} (words : ε → String) : ParseError ε → String
  | .malformed line cause => "line " ++ toString line ++ ": " ++ cause.message
  | .refused line cause => "line " ++ toString line ++ ": " ++ words cause
  | .unreadable path cause => "cannot read " ++ path.text ++ ": " ++ cause.message

/-- Takes one event into a state, or refuses it. -/
abbrev Receiver (σ ε : Type) := Event → σ → Except ε σ

variable {σ ε : Type}

/-- Delivers events up to the first refusal: the state reached, and the refusal with the line
of its event. -/
def deliver (receive : Receiver σ ε) : List Event → σ → σ × Option (Nat × ε)
  | [], state => (state, none)
  | event :: rest, state =>
    match receive event state with
    | .ok next => deliver receive rest next
    | .error cause => (state, some (event.line, cause))

/-- Delivers what a scan found: its events, then its failure. -/
def Scan.deliver (receive : Receiver σ ε) (found : Scan) (state : σ) :
    σ × Option (ParseError ε) :=
  match Markup.deliver receive found.events state with
  | (state, some (line, cause)) => (state, some (.refused line cause))
  | (state, none) => (state, found.failure.map fun (line, cause) => .malformed line cause)

def parse (charset : Charset) (receive : Receiver σ ε) (bytes : List UInt8) (state : σ) :
    σ × Option (ParseError ε) :=
  (scan charset (Text.decodeBytes bytes)).deliver receive state

def parseFile (files : FilePath → Except FileError (List UInt8)) (charset : Charset)
    (receive : Receiver σ ε) (path : FilePath) (state : σ) : σ × Option (ParseError ε) :=
  match files path with
  | .ok bytes => parse charset receive bytes state
  | .error cause => (state, some (.unreadable path cause))

end PanelSkin.Markup
