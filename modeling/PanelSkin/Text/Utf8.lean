/-!
Bytes to characters. A complete UTF-8 sequence is one character; a byte that starts none is
the character of its own value, so no byte is lost and a byte of markup next to a broken
sequence keeps its meaning.
-/

namespace PanelSkin.Text

/-- The low six bits of a continuation byte. -/
def continuation (b : UInt8) : Option Nat :=
  if 0x80 ≤ b ∧ b ≤ 0xBF then some (b.toNat - 0x80) else none

/-- The character of a code point, if it is a scalar value of at least `least`. -/
def scalarFrom (least n : Nat) : Option Char :=
  if h : least ≤ n ∧ n.isValidChar then some (Char.ofNatAux n h.2) else none

/-- A sequence of two bytes with lead byte `a`. -/
def pairChar (a : UInt8) : List UInt8 → Option Char
  | b :: _ => do
    let b ← continuation b
    scalarFrom 0x80 ((a.toNat - 0xC0) * 64 + b)
  | [] => none

/-- A sequence of three bytes with lead byte `a`. -/
def tripleChar (a : UInt8) : List UInt8 → Option Char
  | b :: c :: _ => do
    let b ← continuation b
    let c ← continuation c
    scalarFrom 0x800 (((a.toNat - 0xE0) * 64 + b) * 64 + c)
  | _ => none

/-- A sequence of four bytes with lead byte `a`. -/
def quadChar (a : UInt8) : List UInt8 → Option Char
  | b :: c :: d :: _ => do
    let b ← continuation b
    let c ← continuation c
    let d ← continuation d
    scalarFrom 0x10000 ((((a.toNat - 0xF0) * 64 + b) * 64 + c) * 64 + d)
  | _ => none

/-- The character at lead byte `a`, and how many bytes of `rest` belong to it. -/
def leadChar (a : UInt8) (rest : List UInt8) : Char × Nat :=
  let alone := (Char.ofNat a.toNat, 0)
  if 0xC2 ≤ a ∧ a ≤ 0xDF then ((pairChar a rest).map (·, 1)).getD alone
  else if 0xE0 ≤ a ∧ a ≤ 0xEF then ((tripleChar a rest).map (·, 2)).getD alone
  else if 0xF0 ≤ a ∧ a ≤ 0xF4 then ((quadChar a rest).map (·, 3)).getD alone
  else alone

/-- Decodes bytes of which the first `skip` belong to a character already read. -/
def decodeAfter : Nat → List UInt8 → List Char
  | _, [] => []
  | skip + 1, _ :: rest => decodeAfter skip rest
  | 0, a :: rest =>
    let (c, skip) := leadChar a rest
    c :: decodeAfter skip rest

def decodeBytes (bytes : List UInt8) : List Char := decodeAfter 0 bytes

end PanelSkin.Text
