import PanelSkin.Expr.Variable
import PanelSkin.Font.Table
import PanelSkin.Skin.Host
import PanelSkin.Widget.Surroundings

/-!
The lookups of a skin. Variables, fonts and the conditions of both can look each other up. A
variable that is met while it is being evaluated counts as false, so variables alone always have
an outcome; a font whose condition asks for the font itself has none.
-/

namespace PanelSkin

/-- Something that was asked of the environment. -/
inductive Access where
  | token (token : Token) (row : Option Nat)
  | picture (path : FilePath)
  | font (spec : FontSpec)
  deriving DecidableEq, Repr

/-- What changes while a skin is used, apart from its variables and its widgets. -/
structure Shelf where
  fontSlots : FontSlots := []
  pictures : PictureCache
  /-- What was asked of the environment, the last in front. -/
  journal : List Access := []

namespace Shelf

def note (s : Shelf) (access : Access) : Shelf := { s with journal := access :: s.journal }

def fetch (load : FilePath → Except PictureError Picture) (scale : Resampler) (s : Shelf)
    (name : String) (width height : Option Nat) : Option Picture × Shelf :=
  let fetched := s.pictures.fetch load name width height scale
  let shelf := { s with pictures := fetched.cache }
  (fetched.picture, (fetched.loaded.map fun path => shelf.note (.picture path)).getD shelf)

/-- Uses the font declared at an index. -/
def useFont (load : FontSpec → Except FontError Face) (s : Shelf) (index : Nat)
    (spec : FontSpec) : Option Face × Shelf :=
  let used := s.fontSlots.use load index spec
  let shelf := { s with fontSlots := used.slots }
  (used.face, if used.loaded then shelf.note (.font spec) else shelf)

end Shelf

abbrev Evaluation := Run Shelf

def Evaluation.onShelf {α : Type} (f : Shelf → α × Shelf) : Evaluation α := fun cells shelf =>
  let (a, shelf) := f shelf
  some ((a, cells), shelf)

/-- What stays the same during an evaluation. -/
structure Context where
  env : Environment
  /-- The directory of the skin. -/
  base : FilePath
  separator : String := defaultSeparator
  tick : Nat := 0
  switch : Nat := 0
  variableTable : VariableTable := {}
  fontTable : FontTable := {}

namespace Context

def token (c : Context) (t : Token) (row : Option Nat) : Evaluation Value :=
  .onShelf fun shelf => (c.env.host.token t row, shelf.note (.token t row))

def picture (c : Context) (name : String) (width height : Option Nat) :
    Evaluation (Option Picture) :=
  .onShelf fun shelf => shelf.fetch c.env.loadPicture c.env.resampler name width height

/-- The font with an id, whose conditions see `lookups`. -/
def font (c : Context) (lookups : Lookups Evaluation) (id : String) : Evaluation (Option Face) := do
  match ← c.fontTable.select lookups id with
  | none => return none
  | some (index, f) =>
    .onShelf fun shelf => shelf.useFont (c.env.loadFont · c.base) index f.spec

/-- The lookups, given those of variables and fonts. -/
def lookupsWith (c : Context) (valueOf : String → Evaluation (Option Value))
    (fontOf : String → Evaluation (Option Face)) : Lookups Evaluation where
  tokenId := c.env.host.tokenId
  variableText := fun id => do return (← valueOf id).map Value.asText
  token := fun t => c.token t none
  variableValue := valueOf
  translate := fun text => pure (c.env.host.translate text)
  fontMetric := fun id metric => do return (← fontOf id).map (·.metric metric)
  textExtent := fun id text extent => do return (← fontOf id).map (·.extent text extent)
  pictureSize := fun name => do
    return (← c.picture name none none).map fun p => (p.width, p.height)
  feature := fun name => pure (c.env.host.feature name)
  clock := { now := c.env.host.now, tick := c.tick, switch := c.switch }

/-- The lookups in which variables and fonts nest at most `bound` deep. -/
def lookups (c : Context) : Nat → Lookups Evaluation
  | 0 => c.lookupsWith (fun _ => Run.exhausted) (fun _ => Run.exhausted)
  | bound + 1 =>
    let inner := c.lookups bound
    c.lookupsWith (fun id => c.variableTable.value inner id) (fun id => c.font inner id)

/-- A bound on nesting beyond which no outcome is to be expected: between two changes of what is
known about the variables each font is asked for once, and each variable changes twice at most,
by being met and by keeping its value. -/
def depth (c : Context) : Nat := (2 * c.variableTable.size + 2) * (c.fontTable.size + 2)

def all (c : Context) : Lookups Evaluation := c.lookups c.depth

def surroundings (c : Context) : Surroundings Evaluation :=
  { c.all with
    font := c.font c.all
    picture := c.picture
    rowToken := fun t row => c.token t (some row)
    tabStop := c.env.host.tabStop
    separator := c.separator }

end Context

end PanelSkin
