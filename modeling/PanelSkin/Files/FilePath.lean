/-!
File paths as texts with slashes. Joining keeps the text as it is written; two paths are the
same when their components are, so that repeated slashes, a slash at the end and inner dots
make no difference. Two dots are not resolved.
-/

namespace PanelSkin

/-- A path, as it is written. -/
structure FilePath where
  text : String
  deriving DecidableEq, Repr, Inhabited

namespace FilePath

/-- What a path is made of. A dot is a component only at the start of a relative path. -/
inductive Component where
  | root
  | here
  | parent
  | name (text : String)
  deriving DecidableEq, Repr

def pieces (p : FilePath) : List (List Char) := p.text.toList.splitOn '/'

/-- Whether the path starts at the root. -/
def isAbsolute (p : FilePath) : Bool := p.text.toList.head? == some '/'

/-- A piece as a component; the empty piece and the dot are none. -/
def componentOf : List Char → Option Component
  | [] => none
  | ['.'] => none
  | ['.', '.'] => some .parent
  | name => some (.name (String.ofList name))

/-- The components of a path, which decide whether two paths are the same. -/
def components (p : FilePath) : List Component :=
  let lead := if p.isAbsolute then [Component.root]
    else if p.pieces.head? == some ['.'] then [.here] else []
  lead ++ p.pieces.filterMap componentOf

/-- Whether two paths have the same components. -/
def same (p q : FilePath) : Bool := p.components == q.components

/-- `p` inside directory `base`; an absolute path stays what it is. -/
def join (base p : FilePath) : FilePath :=
  if p.isAbsolute then p
  else if base.text.isEmpty || base.text.toList.getLast? == some '/' then ⟨base.text ++ p.text⟩
  else ⟨base.text ++ "/" ++ p.text⟩

/-- A reversed path body without the empty and dot pieces at its end. -/
def trimPieces : List (List Char) → List (List Char)
  | [] => []
  | piece :: before =>
    if piece = [] ∨ piece = ['.'] then trimPieces before else piece :: before

/-- Pieces, last one first, joined with slashes. -/
def joinPieces (reversed : List (List Char)) : List Char :=
  ['/'].intercalate reversed.reverse

/-- The path without its last component; `none` for the root and for the empty path. -/
def parent? (p : FilePath) : Option FilePath :=
  let pieces := p.pieces.reverse
  if p.isAbsolute then
    -- the last of the reversed pieces is the empty one before the root's slash
    match trimPieces pieces.dropLast with
    | [] => none
    | _ :: before => some ⟨String.ofList ('/' :: joinPieces (trimPieces before))⟩
  else if pieces.getLast? == some ['.'] then
    match trimPieces pieces.dropLast with
    | [] => some ⟨""⟩
    | _ :: before => some ⟨String.ofList (joinPieces (trimPieces before ++ [['.']]))⟩
  else
    match trimPieces pieces with
    | [] => none
    | _ :: before => some ⟨String.ofList (joinPieces (trimPieces before))⟩

end FilePath

end PanelSkin
