import PanelSkin.Text.Numeral

/-!
Character references in text: `&lt;`, `&gt;`, `&amp;`, `&quot;`, `&apos;` and the numeric forms
`&#65;` and `&#x41;`. A reference is replaced by its character and the result is not read
again; an ampersand that starts no reference stands for itself.
-/

namespace PanelSkin.Markup

/-- The character of a code point; surrogates and numbers past Unicode become U+FFFD. -/
def charOfCode (n : Nat) : Char :=
  if h : n.isValidChar then Char.ofNatAux n h else '\uFFFD'

/-- The code point that a numeric reference names, without its number sign. -/
def readCode : List Char → Option Nat
  | 'x' :: hex => Text.readUnsigned 16 0x100000000 hex
  | 'X' :: hex => Text.readUnsigned 16 0x100000000 hex
  | decimal => Text.readUnsigned 10 0x100000000 decimal

/-- The character that the text between `&` and `;` stands for. -/
def referenceChar : List Char → Option Char
  | ['l', 't'] => some '<'
  | ['g', 't'] => some '>'
  | ['a', 'm', 'p'] => some '&'
  | ['q', 'u', 'o', 't'] => some '"'
  | ['a', 'p', 'o', 's'] => some '\''
  | '#' :: number => (readCode number).map charOfCode
  | _ => none

/-- The reference at the start of the text after an ampersand: its character, and the number of
characters it takes with its semicolon. -/
def reference? (s : List Char) : Option (Char × Nat) :=
  let (name, rest) := s.span (· != ';')
  if rest.isEmpty then none else (referenceChar name).map (·, name.length + 1)

/-- Decodes text of which the first `skip` characters belong to a reference already read. -/
def decodeEntitiesAfter : Nat → List Char → List Char
  | _, [] => []
  | skip + 1, _ :: rest => decodeEntitiesAfter skip rest
  | 0, c :: rest =>
    if c = '&' then
      match reference? rest with
      | some (d, skip) => d :: decodeEntitiesAfter skip rest
      | none => '&' :: decodeEntitiesAfter 0 rest
    else c :: decodeEntitiesAfter 0 rest

/-- The text with its character references replaced. -/
def decodeEntities (s : List Char) : List Char := decodeEntitiesAfter 0 s

end PanelSkin.Markup
