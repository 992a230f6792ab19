import PanelSkin.Skin.Draft

/-!
Elements of skin files as variables, fonts and widgets. Attributes are read in a fixed order,
and the first that is missing or wrong decides the error.
-/

namespace PanelSkin

/-- An element: its tag and its attributes. -/
structure Element where
  tag : String
  attributes : Markup.Attributes
  deriving Repr

inductive WidgetTag where
  | pixel | line | rectangle | ellipse | slope | image | progress | scrollbar | text
  | scrolltext | button | block | list | item
  deriving DecidableEq, Repr

def WidgetTag.ofName? (tag : String) : Option WidgetTag :=
  [("pixel", pixel), ("line", line), ("rectangle", rectangle), ("ellipse", ellipse),
    ("slope", slope), ("image", image), ("progress", progress), ("scrollbar", scrollbar),
    ("text", text), ("scrolltext", scrolltext), ("button", button), ("block", block),
    ("list", list), ("item", item)].lookup tag

namespace Element

/-- The value of an attribute that has to be there. -/
def required (e : Element) (name : String) : Reading String :=
  match e.attributes.get? name with
  | some value => pure value
  | none => throw (.missingAttribute e.tag name)

/-- The value of an attribute read by `read`, which has nothing to say about a value it does not
know. -/
def read? {α : Type} (e : Element) (name : String) (read : String → Option α) :
    Reading (Option α) :=
  match e.attributes.get? name with
  | none => pure none
  | some value =>
    match read value with
    | some a => pure (some a)
    | none => throw (.invalidAttribute e.tag name value)

def keyword? {α : Type} (e : Element) (name : String)
    (parse : String → Except InvalidValue α) : Reading (Option α) :=
  e.read? name fun value => (parse value).toOption

/-- Yes or no, in one of three spellings each. -/
def flagOf? (value : String) : Option Bool :=
  [("yes", true), ("true", true), ("1", true), ("no", false), ("false", false),
    ("0", false)].lookup value

/-- Yes or no; no if it is not said. -/
def flag (e : Element) (name : String) : Reading Bool := do
  return (← e.read? name flagOf?).getD false

/-- A number, blanks at the ends aside. -/
def number? {α : Type} (e : Element) (name : String) (read : List Char → Option α) :
    Reading (Option α) :=
  e.read? name fun value => read (Text.trim value.toList)

def paint? (e : Element) (name : String) : Reading (Option Paint) := e.read? name Paint.parse?

def expr? (l : Loading) (e : Element) (name : String) : Reading (Option Expr) :=
  match e.attributes.get? name with
  | none => pure none
  | some value => some <$> l.readExpr value

/-- An expression that is zero if it is not said. -/
def exprOrZero (l : Loading) (e : Element) (name : String) : Reading Expr := do
  return (← e.expr? l name).getD (.number 0)

/-- An expression that has to be there. -/
def requiredExpr (l : Loading) (e : Element) (name : String) : Reading Expr := do
  l.readExpr (← e.required name)

/-- The first of two expressions that is there; both are read. -/
def eitherExpr? (l : Loading) (e : Element) (name other : String) : Reading (Option Expr) := do
  let first ← e.expr? l name
  let second ← e.expr? l other
  return first.or second

/-- A far bound, by its coordinate or else by a length. -/
def span (l : Loading) (e : Element) (edge length : String) (default : Span) : Reading Span := do
  match ← e.expr? l edge with
  | some far => return .edge far
  | none =>
    match ← e.expr? l length with
    | some pixels => return .length pixels
    | none => return default

def geometry (l : Loading) (e : Element) : Reading Geometry := do
  let whole : Geometry := {}
  let x1 ← e.eitherExpr? l "x1" "x"
  let y1 ← e.eitherExpr? l "y1" "y"
  let x2 ← e.span l "x2" "width" whole.x2
  let y2 ← e.span l "y2" "height" whole.y2
  return { x1 := x1.getD whole.x1, y1 := y1.getD whole.y1, x2, y2 }

def style (l : Loading) (e : Element) : Reading Style := do
  let plain : Style := {}
  let geometry ← e.geometry l
  let condition ← e.expr? l "condition"
  let color ← e.paint? "color"
  let background ← e.paint? "bgcolor"
  return { geometry, condition, color := color.getD plain.color
           background := background.getD plain.background }

def pictureBox (l : Loading) (e : Element) : Reading PictureBox := do
  let path ← l.readTemplate (← e.required "path")
  let plain : PictureBox := { path }
  let loop ← e.keyword? "loop" LoopMode.parse
  let scale ← e.keyword? "scale" Scale.parse
  return { path, loop := loop.getD plain.loop, scale := scale.getD plain.scale }

/-- A bar; only progress bars have a peak. -/
def bar (l : Loading) (e : Element) (hasPeak : Bool) : Reading Bar := do
  let current ← e.requiredExpr l "current"
  let total ← e.requiredExpr l "total"
  let direction ← e.keyword? "direction" Direction.parse
  let peak ← if hasPeak then e.expr? l "peak" else pure none
  return { direction := direction.getD .leftToRight, current, total, peak }

/-- A text box, whose text is read when the element is closed. -/
def textBox (e : Element) (scroll : LoopMode) : Reading TextBox := do
  let font ← e.required "font"
  let plain : TextBox := { font, scroll }
  let align ← e.keyword? "align" Align.parse
  let valign ← e.keyword? "valign" VAlign.parse
  let multiline ← e.flag "multiline"
  let scroll ← e.keyword? "scrollmode" LoopMode.parse
  let speed ← e.number? "scrollspeed" Text.readInt32
  let pause ← e.number? "scrolltime" Text.readNat64
  return { plain with
    align := align.getD plain.align, valign := valign.getD plain.valign, multiline
    scroll := scroll.getD plain.scroll, speed := speed.getD plain.speed
    pause := pause.getD plain.pause }

/-- A widget of a kind, apart from its style. -/
def kind (l : Loading) (e : Element) (filled : Bool) : WidgetTag → Reading (Style → Widget)
  | .pixel => pure (.leaf · .pixel)
  | .line => pure (.leaf · .line)
  | .rectangle => do
    let radius ← e.exprOrZero l "radius"
    return (.leaf · (.rectangle filled radius))
  | .ellipse => do
    let arc ← e.exprOrZero l "arc"
    return (.leaf · (.ellipse filled arc))
  | .slope => do
    match ← e.expr? l "arc" with
    | some arc => return (.leaf · (.slope arc))
    | none =>
      let arc ← e.exprOrZero l "type"
      return (.leaf · (.slope arc))
  | .image => do
    let box ← e.pictureBox l
    return (.leaf · (.picture box))
  | .progress => do
    let bar ← e.bar l true
    return (.leaf · (.progress bar))
  | .scrollbar => do
    let bar ← e.bar l false
    return (.leaf · (.scrollbar bar))
  | .text => do
    let box ← e.textBox .never
    return (.leaf · (.text box))
  | .scrolltext => do
    let box ← e.textBox .always
    return (.leaf · (.text box))
  | .button => do
    let font ← e.required "font"
    let radius ← e.exprOrZero l "radius"
    return (.leaf · (.button { font, radius }))
  | .block => pure (.block · [])
  | .list => pure (.list · [] none)
  | .item => do
    let height ← e.requiredExpr l "height"
    return (.leaf · (.item height))

/-- The widget of an element, without its children and its text. -/
def widget (l : Loading) (e : Element) : Reading Widget := do
  let filled ← e.flag "filled"
  match WidgetTag.ofName? e.tag with
  | none => throw (.unexpectedTag e.tag .amongWidgets)
  | some tag =>
    let build ← e.kind l filled tag
    return build (← e.style l)

/-- Reads a variable, and its default value as another variable of the same id. -/
def declareVariable (l : Loading) (e : Element) : Reading Unit := do
  let id ← e.required "id"
  let value ← e.required "value"
  let policy ← match e.attributes.get? "evaluate" with
    | none => pure Policy.always
    | some text =>
      match Policy.parse text with
      | .ok policy => pure policy
      | .error cause => throw (.expr cause)
  let value ← l.readExpr value
  let condition ← e.expr? l "condition"
  modify (·.declareVariable { id, value, condition, policy })
  match ← e.expr? l "default" with
  | none => return
  | some fallback => modify (·.declareVariable { id, value := fallback, policy })

def declareFont (l : Loading) (e : Element) : Reading Unit := do
  let id ← e.required "id"
  let url ← e.required "url"
  match FontSpec.parse url with
  | .error cause => throw (.font cause)
  | .ok spec =>
    let condition ← e.expr? l "condition"
    modify (·.declareFont { id, spec, condition })

/-- The major and minor number of a version; a version without a dot has minor number zero. -/
def versionNumbers (version : String) : Option (Nat × Nat) := do
  let text := Text.trim version.toList
  let major ← Text.readNat32 (text.takeWhile (· != '.'))
  let minor ← match text.dropWhile (· != '.') with
    | [] => some 0
    | _ :: minor => Text.readNat32 minor
  return (major, minor)

/-- Whether skins of a version can be read. -/
def isSupported (version : String) : Bool :=
  match versionNumbers version with
  | none => false
  | some (major, minor) =>
    major < supportedVersion.1 || (major = supportedVersion.1 && minor ≤ supportedVersion.2)

def readHeader (l : Loading) (e : Element) : Reading Unit := do
  let version ← e.required "version"
  if isSupported version then
    let enable ← e.expr? l "enable"
    let name := (e.attributes.get? "name").getD ""
    modify ({ · with header := some { version, name, enable } })
  else throw (.unsupportedVersion version)

end Element

end PanelSkin
