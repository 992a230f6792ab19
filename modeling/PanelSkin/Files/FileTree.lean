import PanelSkin.Files.FilePath

/-!
A tree of files under a working directory. Reading follows a path piece by piece: a piece of a
directory, a dot, or two dots back up; what can go wrong is a missing entry, a directory where
a file is wanted, a file where a directory is, and a text that cannot be a path at all.
-/

namespace PanelSkin

inductive FileError where
  | missing
  | notDirectory
  | isDirectory
  /-- The path or one of its pieces has too many bytes. -/
  | tooLong
  /-- The path has a zero character in it. -/
  | zeroCharacter
  deriving DecidableEq, Repr

/-- The operating system's words for a file error. -/
def FileError.message : FileError → String
  | .missing => "No such file or directory (os error 2)"
  | .notDirectory => "Not a directory (os error 20)"
  | .isDirectory => "Is a directory (os error 21)"
  | .tooLong => "File name too long (os error 36)"
  | .zeroCharacter => "file name contained an unexpected NUL byte"

/-- Most bytes of a path. -/
def longestPath : Nat := 4095

/-- Most bytes of a piece of a path. -/
def longestName : Nat := 255

/-- Files by their names from the working directory down; a directory exists when a file lies
in it. -/
structure FileTree (α : Type) where
  files : List (List String × α) := []

namespace FileTree

variable {α : Type}

/-- Where a walk along a path stands. -/
inductive Stand (α : Type) where
  /-- A directory below the working directory, innermost name first. -/
  | inside (names : List String)
  /-- A directory above the working directory. -/
  | above
  /-- A file. -/
  | file (content : α)

/-- A tree with the given files, named by relative paths. -/
def ofList (files : List (FilePath × α)) : FileTree α :=
  ⟨files.map fun (p, a) =>
    (p.components.filterMap fun | .name text => some text | _ => none, a)⟩

/-- The content of the file with these names. -/
def content? (t : FileTree α) (names : List String) : Option α :=
  (t.files.find? (·.1 == names)).map (·.2)

/-- Whether some file lies below these names. -/
def hasDirectory (t : FileTree α) (names : List String) : Bool :=
  t.files.any fun (file, _) => names.length < file.length && names.isPrefixOf file

def enter (t : FileTree α) (stand : Stand α) (piece : List Char) : Except FileError (Stand α) :=
  match stand with
  | .file _ => .error .notDirectory
  | .above =>
    if piece = [] ∨ piece = ['.'] ∨ piece = ['.', '.'] then .ok .above
    else if longestName < (String.ofList piece).utf8ByteSize then .error .tooLong
    else .error .missing
  | .inside names =>
    if piece = [] ∨ piece = ['.'] then .ok stand
    else if piece = ['.', '.'] then
      match names with
      | [] => .ok .above
      | _ :: outer => .ok (.inside outer)
    else if longestName < (String.ofList piece).utf8ByteSize then .error .tooLong
    else
      let entered := String.ofList piece :: names
      match t.content? entered.reverse with
      | some content => .ok (.file content)
      | none => if t.hasDirectory entered.reverse then .ok (.inside entered) else .error .missing

/-- Follows a path from the working directory. -/
def walk (t : FileTree α) (p : FilePath) : Except FileError (Stand α) :=
  if p.text.toList.contains '\x00' then .error .zeroCharacter
  else if p.text.isEmpty then .error .missing
  else if longestPath < p.text.utf8ByteSize then .error .tooLong
  else p.pieces.foldlM t.enter (if p.isAbsolute then .above else .inside [])

/-- The content of the file at a path. -/
def read (t : FileTree α) (p : FilePath) : Except FileError α :=
  match t.walk p with
  | .ok (.file content) => .ok content
  | .ok _ => .error .isDirectory
  | .error e => .error e

/-- Whether a path leads to a file or a directory. -/
def contains (t : FileTree α) (p : FilePath) : Bool :=
  match t.walk p with
  | .ok _ => true
  | .error _ => false

end FileTree

end PanelSkin
