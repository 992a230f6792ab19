import PanelSkin.Proofs.Markup.Reading

/-!
A scan with buffers that all tags of a document share: one for character data, one for the name of
a tag, one for the name and one for the value of an attribute, and one list of attributes. They are
not new with every tag, so that what an earlier one left in them could be taken for a part of it.
It is not: whenever a buffer is read, all that is in it has been read for the purpose, and the scan
finds what one finds whose modes carry their own text.
-/

namespace PanelSkin.Markup

/-- What the next character can be part of, without what has been read of it. -/
inductive State where
  | content
  | afterLess
  | tagName
  | afterBang
  | afterBangDash
  | comment
  | commentDash
  | commentDashDash
  | declaration
  | declarationMark
  | beforeName
  | attributeName
  | beforeValue
  | value
  | afterSlash
  | afterCloseMark
  | closeName
  | afterCloseName
  deriving DecidableEq, Repr

/-- The state of a scan that shares its buffers. Texts are kept last character first. -/
structure Buffers where
  state : State := .content
  line : Nat := 1
  text : List Char := []
  tagName : List Char := []
  attributeName : List Char := []
  attributeValue : List Char := []
  attributes : Attributes := {}
  quote : Char := '"'
  sawEquals : Bool := false
  escaped : Bool := false
  nesting : List String := []
  deriving DecidableEq, Repr

namespace Buffers

/-- Hands over the element of the buffers, and leaves its attributes behind. -/
def openElement (b : Buffers) (empty : Bool) : Buffers × List Event :=
  let tag := textOf b.tagName
  let events := .start tag b.attributes b.line :: if empty then [.finish tag b.line] else []
  ({ b with
      state := .content, attributes := {},
      nesting := if empty then b.nesting else tag :: b.nesting }, events)

def closeElement (b : Buffers) : Except SyntaxError (Buffers × List Event) :=
  let tag := textOf b.tagName
  match b.nesting with
  | [] => .error (.unmatchedClose tag)
  | expected :: outer =>
    if expected = tag then
      .ok ({ b with state := .content, nesting := outer }, [.finish tag b.line])
    else .error (.mismatchedTag expected tag)

/-- One character, line counting aside. -/
def advance (charset : Charset) (b : Buffers) (c : Char) :
    Except SyntaxError (Buffers × List Event) :=
  let silent (b : Buffers) : Except SyntaxError (Buffers × List Event) := .ok (b, [])
  let refuse (place : Place) : Except SyntaxError (Buffers × List Event) :=
    .error (.unexpectedChar c place)
  match b.state with
  | .content =>
    if c = '<' then
      .ok ({ b with state := .afterLess, text := [] }, Scanner.flush charset b.line b.text)
    else silent { b with text := c :: b.text }
  | .afterLess =>
    if c = '/' then silent { b with state := .afterCloseMark }
    else if c = '!' then silent { b with state := .afterBang }
    else if c = '?' then silent { b with state := .declaration }
    else if isNameStart c then
      silent { b with state := .tagName, tagName := [c], attributes := {} }
    else refuse .afterLess
  | .tagName =>
    if isNameChar c then silent { b with tagName := c :: b.tagName }
    else if isSpace c then silent { b with state := .beforeName }
    else if c = '/' then silent { b with state := .afterSlash }
    else if c = '>' then .ok (b.openElement false)
    else refuse .tagName
  | .afterBang => if c = '-' then silent { b with state := .afterBangDash } else refuse .afterBang
  | .afterBangDash => if c = '-' then silent { b with state := .comment } else refuse .afterBangDash
  | .comment => silent (if c = '-' then { b with state := .commentDash } else b)
  | .commentDash => silent { b with state := if c = '-' then .commentDashDash else .comment }
  | .commentDashDash =>
    silent (if c = '>' then { b with state := .content }
      else if c = '-' then b else { b with state := .comment })
  | .declaration => silent (if c = '?' then { b with state := .declarationMark } else b)
  | .declarationMark =>
    silent (if c = '>' then { b with state := .content }
      else if c = '?' then b else { b with state := .declaration })
  | .beforeName =>
    if isSpace c then silent b
    else if c = '/' then silent { b with state := .afterSlash }
    else if c = '>' then .ok (b.openElement false)
    else if isNameStart c then silent { b with state := .attributeName, attributeName := [c] }
    else refuse .attributeName
  | .attributeName =>
    if isNameChar c then silent { b with attributeName := c :: b.attributeName }
    else if c = '=' then silent { b with state := .beforeValue, sawEquals := true }
    else if isSpace c then silent { b with state := .beforeValue, sawEquals := false }
    else refuse .inAttributeName
  | .beforeValue =>
    if isSpace c then silent b
    else if c = '=' ∧ b.sawEquals = false then silent { b with sawEquals := true }
    else if (c = '"' ∨ c = '\'') ∧ b.sawEquals = true then
      silent { b with state := .value, quote := c, attributeValue := [], escaped := false }
    else refuse .attributeValue
  | .value =>
    if b.escaped then
      let kept := if c = b.quote then b.attributeValue else '\\' :: b.attributeValue
      silent { b with attributeValue := c :: kept, escaped := false }
    else if c = '\\' then silent { b with escaped := true }
    else if c = b.quote then
      silent { b with
        state := .beforeName, attributeName := [], attributeValue := [],
        attributes :=
          b.attributes.insert (textOf b.attributeName) (charset (textOf b.attributeValue)) }
    else silent { b with attributeValue := c :: b.attributeValue }
  | .afterSlash => if c = '>' then .ok (b.openElement true) else refuse .afterSlash
  | .afterCloseMark =>
    if isNameStart c then silent { b with state := .closeName, tagName := [c] }
    else refuse .afterCloseMark
  | .closeName =>
    if isNameChar c then silent { b with tagName := c :: b.tagName }
    else if isSpace c then silent { b with state := .afterCloseName }
    else if c = '>' then b.closeElement
    else refuse .closingTag
  | .afterCloseName =>
    if c = '>' then b.closeElement
    else if isSpace c then silent b
    else refuse .closingTag

/-- One character, and the line feed if it is one. -/
def feed (charset : Charset) (b : Buffers) (c : Char) : Except SyntaxError (Buffers × List Event) :=
  (b.advance charset c).map fun (next, events) =>
    ({ next with line := if c = '\n' then next.line + 1 else next.line }, events)

def finish (charset : Charset) (b : Buffers) : Except SyntaxError (List Event) :=
  if b.state = .content then
    match b.nesting with
    | tag :: _ => .error (.unclosed tag)
    | [] => .ok (Scanner.flush charset b.line b.text)
  else .error .unexpectedEnd

def run (charset : Charset) (b : Buffers) : List Char → Scan
  | [] =>
    match b.finish charset with
    | .ok events => ⟨events, none⟩
    | .error cause => ⟨[], some (b.line, cause)⟩
  | c :: rest =>
    match b.feed charset c with
    | .error cause => ⟨[], some (b.line, cause)⟩
    | .ok (next, events) =>
      let scan := next.run charset rest
      ⟨events ++ scan.events, scan.failure⟩

/-- The tag in the buffers. -/
def tag (b : Buffers) : OpenTag := ⟨textOf b.tagName, b.attributes⟩

/-- A mode with the text that the buffers hold for it. -/
def mode (b : Buffers) : Mode :=
  match b.state with
  | .content => .content b.text
  | .afterLess => .afterLess
  | .tagName => .tagName b.tagName
  | .afterBang => .afterBang
  | .afterBangDash => .afterBangDash
  | .comment => .comment
  | .commentDash => .commentDash
  | .commentDashDash => .commentDashDash
  | .declaration => .declaration
  | .declarationMark => .declarationMark
  | .beforeName => .beforeName b.tag
  | .attributeName => .attributeName b.tag b.attributeName
  | .beforeValue => .beforeValue b.tag (textOf b.attributeName) b.sawEquals
  | .value => .value b.tag (textOf b.attributeName) b.quote b.escaped b.attributeValue
  | .afterSlash => .afterSlash b.tag
  | .afterCloseMark => .afterCloseMark
  | .closeName => .closeName b.tagName
  | .afterCloseName => .afterCloseName (textOf b.tagName)

/-- The scan that carries what the buffers hold. -/
def scanner (b : Buffers) : Scanner := ⟨b.mode, b.line, b.nesting⟩

/-- Behind the name of an opening tag, up to its end. -/
def behindName (b : Buffers) : Prop :=
  b.state = .beforeName ∨ b.state = .attributeName ∨ b.state = .beforeValue ∨ b.state = .value ∨
    b.state = .afterSlash

/-- There is no character data while a tag is read, and no attribute of a tag but behind its
name. -/
structure IsClear (b : Buffers) : Prop where
  text : b.state ≠ .content → b.text = []
  attributes : ¬ b.behindName → b.attributes = {}

variable {charset : Charset}

/-- The step of the scan that carries its text. -/
def toStep (outcome : Buffers × List Event) : Scanner.Step :=
  ⟨outcome.1.mode, outcome.1.nesting, outcome.2⟩

theorem closeElement_simulates {b : Buffers} (htext : b.text = []) (m : Mode) :
    b.closeElement.map toStep =
      Scanner.closeElement ⟨m, b.line, b.nesting⟩ (textOf b.tagName) := by
  unfold closeElement Scanner.closeElement
  cases b.nesting with
  | nil => rfl
  | cons expected outer =>
      dsimp only
      split
      · simp [Except.map, toStep, mode, htext]
      · rfl

/-- With clear buffers both scans take the same step. -/
theorem advance_simulates {b : Buffers} (h : b.IsClear) (c : Char) :
    (b.advance charset c).map toStep = b.scanner.advance charset c := by
  obtain ⟨htext, hattributes⟩ := h
  obtain ⟨state, line, text, tagName, attributeName, attributeValue, attributes, quote, sawEquals,
    escaped, nesting⟩ := b
  cases state <;> simp only [scanner, mode, advance, Scanner.advance]
  case content => split_ifs <;> rfl
  all_goals obtain rfl : text = [] := htext State.noConfusion
  case tagName =>
    obtain rfl : attributes = {} := hattributes (by simp [behindName])
    split_ifs <;> rfl
  case beforeValue =>
    split_ifs with _ _ hquote
    · rfl
    · rfl
    · rw [hquote.2]
      rfl
    · rfl
  case value =>
    cases escaped <;> simp only [if_true, Bool.false_eq_true, if_false] <;> split_ifs <;> rfl
  case closeName =>
    split_ifs
    · rfl
    · rfl
    · exact closeElement_simulates rfl _
    · rfl
  case afterCloseName =>
    split_ifs
    · exact closeElement_simulates rfl _
    · rfl
    · rfl
  -- in every other mode the two steps are the same text
  all_goals split_ifs <;> rfl

theorem closeElement_clear {b : Buffers} (htext : b.text = []) (hattributes : b.attributes = {})
    {next : Buffers} {events : List Event} (hclose : b.closeElement = .ok (next, events)) :
    next.line = b.line ∧ next.IsClear := by
  unfold closeElement at hclose
  dsimp only at hclose
  split at hclose
  · cases hclose
  · split_ifs at hclose
    cases hclose
    exact ⟨rfl, fun _ => htext, fun _ => hattributes⟩

/-- A character leaves the line, and clear buffers. -/
theorem advance_clear {b : Buffers} (h : b.IsClear) {c : Char} {next : Buffers}
    {events : List Event} (hadvance : b.advance charset c = .ok (next, events)) :
    next.line = b.line ∧ next.IsClear := by
  obtain ⟨htext, hattributes⟩ := h
  unfold advance at hadvance
  cases hstate : b.state <;> simp only [hstate] at hadvance htext
  case closeName | afterCloseName =>
    have hclosing := @closeElement_clear b (htext State.noConfusion)
      (hattributes (by simp [behindName, hstate])) next events
    split_ifs at hadvance
    all_goals first
      | exact hclosing hadvance
      | (cases hadvance; refine ⟨rfl, ?_, ?_⟩ <;> simp_all [behindName])
  all_goals
    split_ifs at hadvance <;> cases hadvance <;> refine ⟨rfl, ?_, ?_⟩ <;>
      simp_all [behindName]

/-- The line a scan is on does not change what it has in its buffers. -/
theorem IsClear.atLine {b : Buffers} (h : b.IsClear) (line : Nat) : IsClear { b with line } :=
  ⟨h.text, h.attributes⟩

theorem feed_simulates {b : Buffers} (h : b.IsClear) (c : Char) :
    (∃ cause, b.feed charset c = .error cause ∧ b.scanner.step charset c = .error cause) ∨
      ∃ next events, b.feed charset c = .ok (next, events) ∧ next.IsClear ∧
        b.scanner.step charset c = .ok (next.scanner, events) := by
  have hsame : (b.advance charset c).map toStep = b.scanner.advance charset c :=
    advance_simulates h c
  unfold feed Scanner.step
  rw [← hsame]
  cases hadvance : b.advance charset c with
  | error cause => exact Or.inl ⟨cause, rfl, rfl⟩
  | ok outcome =>
      obtain ⟨next, events⟩ := outcome
      obtain ⟨hline, hclear⟩ := advance_clear h hadvance
      refine Or.inr ⟨_, events, rfl, hclear.atLine _, ?_⟩
      dsimp only [Except.map, toStep]
      rw [hline]
      rfl

theorem finish_simulates (b : Buffers) :
    b.finish charset = b.scanner.finish charset := by
  unfold finish Scanner.finish
  cases hstate : b.state <;> simp only [scanner, mode, hstate] <;> rfl

/-- Of every text, both scans find the same. -/
theorem run_simulates {b : Buffers} (h : b.IsClear) (text : List Char) :
    b.run charset text = b.scanner.run charset text := by
  induction text generalizing b with
  | nil =>
      unfold run Scanner.run
      rw [finish_simulates]
      rfl
  | cons c rest ih =>
      unfold run Scanner.run
      rcases feed_simulates h c with ⟨cause, hfeed, hstep⟩ | ⟨next, events, hfeed, hclear, hstep⟩
      · rw [hfeed, hstep]
        rfl
      · rw [hfeed, hstep]
        dsimp only
        rw [ih hclear]

theorem run_eq_scan (charset : Charset) (text : List Char) :
    run charset {} text = scan charset text :=
  run_simulates ⟨fun _ => rfl, fun _ => rfl⟩ text

end Buffers

end PanelSkin.Markup
