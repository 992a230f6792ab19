import PanelSkin.Expr.Basic
import PanelSkin.Font.Face
import PanelSkin.Font.Spec
import PanelSkin.Text.Quoted

/-!
The fonts of a skin: declarations with an optional condition, several of which may share an id.
The first whose condition holds is the font. A font is loaded when it is first used; one that
does not load is not tried again, and no other declaration stands in for it.

Declarations never change. What does is one slot per declaration: empty until the first use, and
then the face, or none if it did not load.
-/

namespace PanelSkin

structure FontDecl where
  id : String
  spec : FontSpec
  condition : Option Expr := none
  deriving Repr, Inhabited

/-- All fonts, in declaration order. -/
structure FontTable where
  declarations : List FontDecl := []
  deriving Repr, Inhabited

/-- The outcome of loading each font that was used. -/
abbrev FontSlots := List (Option (Option Face))

namespace FontDecl

variable {m : Type → Type} [Monad m]

/-- Whether the declaration applies: it has no condition, or a true one. -/
def holds (lookups : Lookups m) (f : FontDecl) : m Bool :=
  match f.condition with
  | none => pure true
  | some condition => condition.evaluateBool lookups

end FontDecl

namespace FontTable

variable {m : Type → Type} [Monad m]

/-- The first of some declarations that has the id and applies, with its index; `index` is that
of the first of them. -/
def selectFrom (lookups : Lookups m) (id : String) (index : Nat) :
    List FontDecl → m (Option (Nat × FontDecl))
  | [] => pure none
  | f :: rest => do
    if f.id = id then
      if ← f.holds lookups then return some (index, f)
      else selectFrom lookups id (index + 1) rest
    else selectFrom lookups id (index + 1) rest

/-- The declaration that is the font with an id. -/
def select (lookups : Lookups m) (t : FontTable) (id : String) : m (Option (Nat × FontDecl)) :=
  selectFrom lookups id 0 t.declarations

def size (t : FontTable) : Nat := t.declarations.length

def contains (t : FontTable) (id : String) : Bool := t.declarations.any (·.id == id)

def push (t : FontTable) (f : FontDecl) : FontTable := ⟨t.declarations ++ [f]⟩

end FontTable

namespace FontSlots

/-- Whether the declaration at an index was used. -/
def isLoaded (slots : FontSlots) (index : Nat) : Bool := (slots[index]?.getD none).isSome

structure Used where
  face : Option Face
  /-- Whether it was loaded for this use. -/
  loaded : Bool
  slots : FontSlots

/-- Uses the declaration at an index, loading it if this is the first time. -/
def use (load : FontSpec → Except FontError Face) (slots : FontSlots) (index : Nat)
    (spec : FontSpec) : Used :=
  match slots[index]?.getD none with
  | some face => { face, loaded := false, slots }
  | none =>
    let face := (load spec).toOption
    { face, loaded := true, slots := slots.set index (some face) }

end FontSlots

/-- The source of a font in a summary. -/
def FontSpec.summary : FontSpec → String
  | .bitmap path => "Bitmap \x7b path: " ++ Text.quoted path ++ " \x7d"
  | .outline path size =>
    "Outline \x7b path: " ++ Text.quoted path ++ ", size: " ++ toString size ++ " \x7d"
  | .pattern text size =>
    "Pattern \x7b pattern: " ++ Text.quoted text ++ ", size: " ++ toString size ++ " \x7d"

def FontDecl.summary (f : FontDecl) (isLoaded : Bool) : String :=
  "FontDef \x7b id: " ++ Text.quoted f.id ++ ", spec: " ++ f.spec.summary ++ ", loaded: "
    ++ toString isLoaded ++ " \x7d"

def FontTable.summary (t : FontTable) (slots : FontSlots) (base : FilePath) : String :=
  let fonts := t.declarations.zipIdx.map fun (f, index) => f.summary (slots.isLoaded index)
  "FontRegistry \x7b fonts: [" ++ String.intercalate ", " fonts ++ "], base_dir: "
    ++ Text.quoted base.text ++ " \x7d"

end PanelSkin
