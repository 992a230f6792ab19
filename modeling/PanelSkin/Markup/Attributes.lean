/-!
The attributes of one element: an ordered map from names to values. A name keeps the place of
its first insertion and the value of its last.
-/

namespace PanelSkin.Markup

/-- Attribute list of one element, in document order. -/
structure Attributes where
  entries : List (String × String) := []
  deriving DecidableEq, Repr, Inhabited

namespace Attributes

/-- Replaces the value under `name` in place, or appends a new entry. -/
def insertEntry (name value : String) : List (String × String) → List (String × String)
  | [] => [(name, value)]
  | (n, v) :: rest =>
    if n = name then (n, value) :: rest else (n, v) :: insertEntry name value rest

/-- Sets an attribute, replacing an earlier value with the same name. -/
def insert (a : Attributes) (name value : String) : Attributes :=
  ⟨insertEntry name value a.entries⟩

def get? (a : Attributes) (name : String) : Option String := a.entries.lookup name

def contains (a : Attributes) (name : String) : Bool := (a.get? name).isSome

def size (a : Attributes) : Nat := a.entries.length

def isEmpty (a : Attributes) : Bool := a.entries.isEmpty

/-- The names, in order of first insertion. -/
def names (a : Attributes) : List String := a.entries.map (·.1)

end Attributes

end PanelSkin.Markup
