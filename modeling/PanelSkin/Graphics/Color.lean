import PanelSkin.Text.Blank
import PanelSkin.Text.Numeral

/-!
Colors: four bytes, and the texts that name them. A color is written as one of nine names in
any case, as `0x` and up to eight hexadecimal digits, or as a decimal number. Up to six digits,
or a number of three bytes, leave the alpha byte out, and the color is opaque.
-/

namespace PanelSkin

/-- A color with red, green, blue and alpha bytes. -/
structure Color where
  r : UInt8
  g : UInt8
  b : UInt8
  a : UInt8 := 255
  deriving DecidableEq, Repr, Inhabited

namespace Color

def black : Color := ⟨0, 0, 0, 255⟩
def white : Color := ⟨255, 255, 255, 255⟩
def transparent : Color := ⟨0, 0, 0, 0⟩

def named : List (String × Color) :=
  [("black", black), ("white", white), ("red", ⟨255, 0, 0, 255⟩), ("green", ⟨0, 255, 0, 255⟩),
   ("blue", ⟨0, 0, 255, 255⟩), ("magenta", ⟨255, 0, 255, 255⟩), ("yellow", ⟨255, 255, 0, 255⟩),
   ("cyan", ⟨0, 255, 255, 255⟩), ("transparent", transparent)]

/-- The color whose alpha, red, green and blue bytes are those of a number, high to low. -/
def ofArgb (n : Nat) : Color :=
  ⟨UInt8.ofNat (n / 0x10000), UInt8.ofNat (n / 0x100), UInt8.ofNat n, UInt8.ofNat (n / 0x1000000)⟩

/-- The color whose red, green and blue bytes are those of a number; opaque. -/
def ofRgb (n : Nat) : Color := { ofArgb n with a := 255 }

/-- Whether nothing of the color shows. -/
def isTransparent (c : Color) : Bool := c.a == 0

def ofHex? (digits : List Char) : Option Color := do
  let n ← Text.readUnsigned 16 0x100000000 digits
  if digits.length ≤ 6 then some (ofRgb n)
  else if digits.length ≤ 8 then some (ofArgb n)
  else none

def ofDecimal? (digits : List Char) : Option Color := do
  let n ← Text.readNat32 digits
  if n < 0x1000000 then some (ofRgb n) else some (ofArgb n)

/-- Reads a color, blanks at the ends aside. -/
def parse? (text : String) : Option Color :=
  let s := Text.trim text.toList
  match named.lookup (String.ofList (s.map Char.toLower)) with
  | some color => some color
  | none =>
    match s with
    | '0' :: 'x' :: digits => ofHex? digits
    | '0' :: 'X' :: digits => ofHex? digits
    | _ => ofDecimal? s

/-- One channel of `source` over `target` with some alpha. -/
def mix (alpha source target : UInt8) : UInt8 :=
  UInt8.ofNat ((source.toNat * alpha.toNat + target.toNat * (255 - alpha.toNat)) / 255)

/-- A color drawn onto another; the result is opaque unless nothing was drawn. -/
def onto (source target : Color) : Color :=
  if source.a = 0 then target
  else if source.a = 255 then source
  else
    ⟨mix source.a source.r target.r, mix source.a source.g target.g,
     mix source.a source.b target.b, 255⟩

end Color

end PanelSkin
