import PanelSkin.Expr.Lookups
import PanelSkin.Font.Face
import PanelSkin.Font.Spec
import PanelSkin.Markup.Delivery
import PanelSkin.Picture.Cache

/-!
What lies outside of a skin: the host that shows it, with its data and what its display can do,
and the files that skins, pictures and fonts come from.
-/

namespace PanelSkin

/-- The host of a skin at one moment. -/
structure Host where
  /-- The id of a token name. -/
  tokenId : String → Option Nat
  /-- The value of a token, in a row of a list or outside of lists. -/
  token : Token → Option Nat → Value
  /-- A text in the language of the host. -/
  translate : String → String := id
  /-- The column of a tab stop in a box of some width. -/
  tabStop : Nat → Int → Option Int := fun _ _ => none
  /-- The time in milliseconds. -/
  now : Nat := 0
  /-- A capability of the display. -/
  feature : String → Option Int := fun _ => none
  /-- The character set of skin files. -/
  charset : Markup.Charset := id

structure Environment where
  host : Host
  /-- The bytes of a skin file. -/
  skinFile : FilePath → Except FileError (List UInt8)
  /-- The picture at a resolved path. -/
  loadPicture : FilePath → Except PictureError Picture
  /-- How pictures are brought to another size. -/
  resampler : Resampler := nearestPixel
  /-- A font, for a skin in some directory. -/
  loadFont : FontSpec → FilePath → Except FontError Face

end PanelSkin
