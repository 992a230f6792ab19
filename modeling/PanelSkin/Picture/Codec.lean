import PanelSkin.Picture.Cache

/-!
Picture files. A file is known by its first bytes; what they promise has to be there in full. A
file that holds a picture is described by its format and its content: still formats hold one
frame and no delay, animations all frames with delays in hundredths of a second.
-/

namespace PanelSkin

inductive PictureFormat where
  | png
  | bmp
  | gif
  deriving DecidableEq, Repr, Inhabited

namespace PictureFormat

/-- The first bytes by which files of a format are known. -/
def signatures : PictureFormat → List (List UInt8)
  | .png => [[0x89, 0x50, 0x4E, 0x47, 0x0D, 0x0A, 0x1A, 0x0A]]
  | .bmp => [[0x42, 0x4D]]
  | .gif => [[0x47, 0x49, 0x46, 0x38, 0x37, 0x61], [0x47, 0x49, 0x46, 0x38, 0x39, 0x61]]

/-- Number of bytes needed to know the format. -/
def signatureLength (f : PictureFormat) : Nat := (f.signatures.head?.getD []).length

/-- A delay as the format stores it, in milliseconds: in hundredths of a second, as a word of 16
bits, or not at all. A delay of nothing is the default one. -/
def storedDelay (f : PictureFormat) (delay : Nat) : Nat :=
  match f with
  | .png | .bmp => defaultDelay
  | .gif => if delay / 10 = 0 then defaultDelay else min (delay / 10) 0xFFFF * 10

/-- What is left of a picture that is stored in a format. -/
def stored (f : PictureFormat) (p : Picture) : Picture :=
  let frames := match f with
    | .png | .bmp => p.frames.take 1
    | .gif => p.frames
  { p with frames := frames.map fun frame => { frame with delay := f.storedDelay frame.delay } }

end PictureFormat

/-- The first bytes of a kind of file; `none` stands for any byte. -/
abbrev Beginning := List (Option UInt8)

/-- Whether bytes start as a beginning asks. -/
def Beginning.matches : Beginning → List UInt8 → Bool
  | [], _ => true
  | _ :: _, [] => false
  | want :: rest, b :: bytes => want.all (· == b) && Beginning.matches rest bytes

/-- The beginning that a text of single-byte characters spells; a dot stands for any byte. -/
def Beginning.spelled (text : String) : Beginning :=
  text.toList.map fun c => if c = '.' then none else some (UInt8.ofNat c.toNat)

/-- Beginnings of files in other formats, which are known but not read: photographs, scans,
textures, icons, plain pixel maps and the like. -/
def otherBeginnings : List Beginning :=
  ["\xFF\xD8\xFF", "RIFF....WEBP", "MM\x00*", "II*\x00", "DDS ", "\x00\x00\x01\x00", "#?RADIANCE",
   "\x00\x00..ftypavif", "v/1\x01", "qoif", "P1", "P2", "P3", "P4", "P5", "P6", "P7",
   "farbfeld"].map Beginning.spelled

def knownBeginnings : List Beginning :=
  otherBeginnings
    ++ ([PictureFormat.png, .bmp, .gif].flatMap PictureFormat.signatures).map (·.map some)

/-- Bytes that are no complete picture: known by their beginning, or not at all. -/
def decodeBroken (path : FilePath) (bytes : List UInt8) : PictureError :=
  if knownBeginnings.any (Beginning.matches · bytes) then .decodeFailed
  else .unsupportedFormat path

/-- A file that holds a picture, or the first bytes of one. -/
structure PictureFile where
  format : PictureFormat
  picture : Picture
  /-- Number of bytes that are left of a file cut short. -/
  cut : Option Nat := none
  deriving Repr

/-- The picture in a file at some path. -/
def PictureFile.decode (f : PictureFile) (path : FilePath) : Except PictureError Picture :=
  match f.cut with
  | none => .ok (f.format.stored f.picture)
  | some n =>
    if n < f.format.signatureLength then .error (.unsupportedFormat path)
    else .error .decodeFailed

end PanelSkin
