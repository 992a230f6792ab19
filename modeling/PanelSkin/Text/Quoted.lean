import PanelSkin.Text.Printable

/-!
Quoted text as summaries show it: in double quotes, with backslashes before double quotes
and backslashes, short names for the usual controls, and code points in hexadecimal for
other characters that do not show. A single quote stands as it is.
-/

namespace PanelSkin.Text

def codePoint (c : Char) : List Char := "\\u\x7b".toList ++ Nat.toDigits 16 c.toNat ++ ['}']

def quotedChar (c : Char) : List Char :=
  if c = '"' ∨ c = '\\' then ['\\', c]
  else if c = '\t' then "\\t".toList
  else if c = '\r' then "\\r".toList
  else if c = '\n' then "\\n".toList
  else if c.toNat = 0 then "\\0".toList
  else if isHidden c then codePoint c
  else [c]

def quoted (s : String) : String :=
  String.ofList ('"' :: s.toList.flatMap quotedChar ++ ['"'])

end PanelSkin.Text
