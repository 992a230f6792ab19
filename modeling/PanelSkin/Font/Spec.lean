import PanelSkin.Files.FileTree
import PanelSkin.Text.Blank
import PanelSkin.Text.Numeral

/-!
Where a font comes from: `fnt:path` for a bitmap font, `ft2:path:size` for an outline font at a
size, and `fc:pattern:size=n` for the installed font that a pattern names, where the size can
stand at any place among the parts of the pattern.
-/

namespace PanelSkin

inductive FontSpec where
  | bitmap (path : String)
  | outline (path : String) (size : Nat)
  | pattern (pattern : String) (size : Nat)
  deriving DecidableEq, Repr, Inhabited

inductive FontError where
  | invalidUrl (url : String)
  | unsupported (what : String)
  | notFound (pattern : String)
  | unreadable (path : FilePath) (cause : FileError)
  | unparsable
  deriving DecidableEq, Repr

def FontError.message : FontError → String
  | .invalidUrl url => "invalid font url '" ++ url ++ "'"
  | .unsupported what => "unsupported font type: " ++ what
  | .notFound pattern => "no font matches '" ++ pattern ++ "'"
  | .unreadable path cause => "cannot read font " ++ path.text ++ ": " ++ cause.message
  | .unparsable => "failed to parse font"

namespace FontSpec

/-- A size in pixels: one at least. -/
def readSize (s : List Char) : Option Nat := (Text.readNat32 (Text.trim s)).filter (0 < ·)

/-- The text before and after the last colon. -/
def splitAtLastColon (s : List Char) : Option (List Char × List Char) :=
  match s.reverse.dropWhile (· != ':') with
  | [] => none
  | _ :: before => some (before.reverse, (s.reverse.takeWhile (· != ':')).reverse)

def readOutline (rest : List Char) : Option FontSpec := do
  let (path, size) ← splitAtLastColon rest
  let size ← readSize size
  if path.isEmpty then none else some (.outline (String.ofList path) size)

/-- What a part of a pattern starts with that gives the size. -/
def sizeLead : List Char := "size=".toList

/-- The size that a part of a pattern gives. -/
def sizeText? (part : List Char) : Option (List Char) :=
  if sizeLead.isPrefixOf part then some (part.drop sizeLead.length) else none

/-- Reads a pattern with a size among its parts. Every size must be a number, and the last one
counts. -/
def readPattern (rest : List Char) : Option FontSpec := do
  let parts := rest.splitOn ':'
  let sizes ← (parts.filterMap sizeText?).mapM fun s => Text.readNat32 (Text.trim s)
  let size ← sizes.getLast?.filter (0 < ·)
  let pattern := [':'].intercalate (parts.filter fun part => (sizeText? part).isNone)
  if pattern.isEmpty then none else some (.pattern (String.ofList pattern) size)

/-- Reads what follows the name of a kind of font and its colon. -/
def readRest (kind rest : List Char) : Option FontSpec :=
  if kind = "fnt".toList then
    if rest.isEmpty then none else some (.bitmap (String.ofList rest))
  else if kind = "ft2".toList then readOutline rest
  else if kind = "fc".toList then readPattern rest
  else none

def parse (url : String) : Except FontError FontSpec :=
  let kind := url.toList.takeWhile (· != ':')
  let spec? := match url.toList.dropWhile (· != ':') with
    | [] => none
    | _ :: rest => readRest kind rest
  match spec? with
  | some spec => .ok spec
  | none => .error (.invalidUrl url)

end FontSpec

end PanelSkin
