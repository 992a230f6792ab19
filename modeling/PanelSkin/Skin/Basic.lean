import PanelSkin.Skin.Document
import PanelSkin.Widget.Draw
import PanelSkin.Widget.Update

/-!
Skins: loading one from a file or from memory, and showing its displays. What a skin shows
depends on the environment at that moment and on what it has shown before; the only way to go
without an outcome is a font that asks for itself.
-/

namespace PanelSkin

structure Skin where
  header : Header
  displays : List Display
  /-- The directory of the skin. -/
  base : FilePath
  separator : String := defaultSeparator
  variableTable : VariableTable := {}
  fontTable : FontTable := {}
  /-- The time since which variables kept until the next tick are good. -/
  tick : Nat := 0
  /-- The time since which variables kept until the next switch are good. -/
  switch : Nat := 0
  cells : Cells := []
  shelf : Shelf

namespace Skin

/-- The skin of a draft that was read to its end. -/
def ofDraft (l : Loading) (d : Draft) : Except SkinError Skin :=
  match d.header with
  | none => .error .noSkin
  | some header =>
    .ok { header, displays := d.displays, base := l.base, separator := l.options.separator
          variableTable := d.variableTable, fontTable := d.fontTable, cells := d.cells, shelf := d.shelf }

/-- The skin that reading a document leads to. -/
def ofParse (l : Loading) : Draft × Option (Markup.ParseError LoadError) → Except SkinError Skin
  | (d, none) => ofDraft l d
  | (_, some cause) => .error (.document cause)

/-- Loads a skin from bytes, as if they lay in directory `base`. -/
def loadBytes (env : Environment) (options : LoadOptions) (base : FilePath)
    (bytes : List UInt8) : Except SkinError Skin :=
  let l : Loading := { env, base, options }
  ofParse l (Markup.parse env.host.charset l.receiver bytes l.blank)

def load (env : Environment) (options : LoadOptions) (path : FilePath) : Except SkinError Skin :=
  let l : Loading := { env, base := path.parent?.getD ⟨""⟩, options }
  ofParse l (Markup.parseFile env.skinFile env.host.charset l.receiver path l.blank)

/-- What stays the same while a skin is shown. -/
def context (s : Skin) (env : Environment) : Context :=
  { env, base := s.base, separator := s.separator, tick := s.tick, switch := s.switch
    variableTable := s.variableTable, fontTable := s.fontTable }

/-- Carries out an evaluation in the context of a skin. -/
def evaluate {α : Type} (s : Skin) (env : Environment) (action : Context → Evaluation α) :
    Option (α × Skin) :=
  (action (s.context env) s.cells s.shelf).map fun ((a, cells), shelf) =>
    (a, { s with cells, shelf })

def display? (s : Skin) (id : String) : Option Display := s.displays.find? (·.id == id)

/-- Replaces the widgets of the first display with an id. -/
def replaceWidgets (id : String) (widgets : List Widget) : List Display → List Display
  | [] => []
  | d :: rest =>
    if d.id = id then { d with widgets } :: rest else d :: replaceWidgets id widgets rest

/-- Draws a display on a surface of some size: the drawing calls, or an error if there is no such
display. -/
def render (s : Skin) (env : Environment) (id : String) (width height : Nat) :
    Option (Except SkinError (List DrawCall) × Skin) :=
  match s.display? id with
  | none => some (.error (.unknownDisplay id), s)
  | some d => do
    let screen := Rect.sized 0 0 width height
    let ((widgets, calls), s) ← s.evaluate env fun c =>
      Widget.drawAll d.widgets c.surroundings screen env.host.now
    return (.ok calls, { s with displays := replaceWidgets id widgets s.displays })

/-- Whether a display has to be drawn again at some time. -/
def needsUpdate (s : Skin) (env : Environment) (id : String) (now : Nat) : Option (Bool × Skin) :=
  match s.display? id with
  | none => some (false, s)
  | some d => s.evaluate env fun c => Widget.anyNeedsUpdate c.surroundings now d.widgets

/-- Whether the skin wants to be shown. -/
def isEnabled (s : Skin) (env : Environment) : Option (Bool × Skin) :=
  match s.header.enable with
  | none => some (true, s)
  | some enable => s.evaluate env fun c => enable.evaluateBool c.all

/-- The declaration that is the variable with an id. -/
def declaration (s : Skin) (env : Environment) (id : String) :
    Option (Option VariableDecl × Skin) :=
  s.evaluate env fun c => do return (← c.variableTable.select c.all id).map (·.2)

/-- The value of the variable with an id. -/
def variableValue (s : Skin) (env : Environment) (id : String) : Option (Option Value × Skin) :=
  s.evaluate env fun c => c.variableTable.value c.all id

def font (s : Skin) (env : Environment) (id : String) : Option (Option Face × Skin) :=
  s.evaluate env fun c => c.font c.all id

/-- The skin with all variables to be computed anew. -/
def invalidateVariables (s : Skin) : Skin := { s with cells := s.cells.invalidate }

def clearPictures (s : Skin) : Skin :=
  { s with shelf := { s.shelf with pictures := s.shelf.pictures.clear } }

/-- What was asked of the environment since the journal was last taken, in order. -/
def takeJournal (s : Skin) : List Access × Skin :=
  (s.shelf.journal.reverse, { s with shelf := { s.shelf with journal := [] } })

/-- The lookup state of a skin in one line. -/
def summary (s : Skin) : String :=
  "SkinContext \x7b base_dir: " ++ Text.quoted s.base.text ++ ", variables: "
    ++ toString s.variableTable.size ++ ", fonts: " ++ toString s.fontTable.size ++ ", images: "
    ++ s.shelf.pictures.summary ++ " \x7d"

end Skin

end PanelSkin
