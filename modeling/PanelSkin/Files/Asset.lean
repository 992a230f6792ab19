import PanelSkin.Font.Outline
import PanelSkin.Picture.Codec

/-!
Pictures and fonts from files. A relative font path is looked for in the font directory first,
if there is one, and in the directory of the skin otherwise. A pattern names a font family,
which has to be that of a font file in the font directory; a generic family stands for one
named family.
-/

namespace PanelSkin

/-- What a file holds. -/
inductive Asset where
  | bytes (content : List UInt8)
  | picture (file : PictureFile)
  | font (font : OutlineFont)
  deriving Repr

namespace Asset

/-- The file as bytes of text; pictures and fonts have none. -/
def text : Asset → List UInt8
  | .bytes content => content
  | .picture _ | .font _ => []

def decodePicture (path : FilePath) : Asset → Except PictureError Picture
  | .bytes content => .error (decodeBroken path content)
  | .picture file => file.decode path
  | .font _ => .error (.unsupportedFormat path)

/-- The font in a file, at a size. -/
def face (size : Nat) : Asset → Except FontError Face
  | .font outline => outline.face? size
  | .bytes _ | .picture _ => .error .unparsable

end Asset

namespace FileTree

def loadPicture (t : FileTree Asset) (path : FilePath) : Except PictureError Picture :=
  match t.read path with
  | .ok asset => asset.decodePicture path
  | .error cause => .error (.unreadable path cause)

/-- The ends of the names of font files. -/
def fontFileEnds : List String :=
  [".ttf", ".ttc", ".TTF", ".TTC", ".otf", ".otc", ".OTF", ".OTC"]

/-- Whether a file is named as a font file. -/
def isFontFileName (name : String) : Bool :=
  4 < name.length && fontFileEnds.any (·.toList.isSuffixOf name.toList)

/-- The path of a font file: in the font directory if it is there, else below `base`. -/
def fontPath (t : FileTree Asset) (fontDir : Option FilePath) (base path : FilePath) : FilePath :=
  match fontDir with
  | some dir =>
    if !path.isAbsolute && t.contains (dir.join path) then dir.join path else base.join path
  | none => base.join path

/-- The fonts that patterns can name: those in font files below the font directory. -/
def installedFonts (t : FileTree Asset) (fontDir : Option FilePath) : List OutlineFont :=
  match fontDir.map t.walk with
  | some (.ok (.inside names)) => t.files.filterMap fun (file, asset) =>
    match asset with
    | .font font =>
      if names.reverse.isPrefixOf file && isFontFileName (file.getLast?.getD "") then some font
      else none
    | _ => none
  | _ => []

/-- The family that a pattern names in its first part. -/
def patternFamily (pattern : String) : String :=
  let family := String.ofList (Text.trim (pattern.toList.takeWhile (· != ':')))
  match String.ofList (family.toList.map Char.toLower) with
  | "sans" | "sans-serif" => "Arial"
  | "serif" => "Times New Roman"
  | "mono" | "monospace" => "Courier New"
  | _ => family

/-- Loads a font for a skin in directory `base`. -/
def loadFont (t : FileTree Asset) (fontDir : Option FilePath) (spec : FontSpec)
    (base : FilePath) : Except FontError Face :=
  match spec with
  | .bitmap path => .error (.unsupported ("fnt:" ++ path))
  | .outline path size =>
    let path := t.fontPath fontDir base ⟨path⟩
    match t.read path with
    | .ok asset => asset.face size
    | .error cause => .error (.unreadable path cause)
  | .pattern pattern size =>
    match (t.installedFonts fontDir).find? (·.family == patternFamily pattern) with
    | some font => font.face? size
    | none => .error (.notFound pattern)

end FileTree

end PanelSkin
