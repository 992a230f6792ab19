/-!
Whole numbers written with digits. A numeral is a non-empty run of digits in the given base
and nothing else; an optional plus sign may stand before it, and a minus sign where negative
numbers are asked for. Numbers outside the asked range are refused.
-/

namespace PanelSkin.Text

/-- The value of a hexadecimal digit of either case. -/
def digitValue (c : Char) : Option Nat :=
  if '0' ≤ c ∧ c ≤ '9' then some (c.toNat - '0'.toNat)
  else if 'a' ≤ c ∧ c ≤ 'f' then some (c.toNat - 'a'.toNat + 10)
  else if 'A' ≤ c ∧ c ≤ 'F' then some (c.toNat - 'A'.toNat + 10)
  else none

/-- Continues a number `acc` with digits of the base, up to the end of the text. -/
def readDigitsFrom (base : Nat) (acc : Nat) : List Char → Option Nat
  | [] => some acc
  | c :: rest =>
    match digitValue c with
    | some d => if d < base then readDigitsFrom base (acc * base + d) rest else none
    | none => none

/-- The number written by a non-empty run of digits. -/
def readDigits (base : Nat) (s : List Char) : Option Nat :=
  if s.isEmpty then none else readDigitsFrom base 0 s

/-- A number below `bound`, with an optional plus sign. -/
def readUnsigned (base bound : Nat) (s : List Char) : Option Nat :=
  let digits := match s with
    | '+' :: rest => rest
    | _ => s
  (readDigits base digits).filter (· < bound)

/-- A decimal number `n` with `-bound ≤ n < bound` and an optional sign. -/
def readSigned (bound : Nat) (s : List Char) : Option Int :=
  match s with
  | '-' :: rest => ((readDigits 10 rest).filter (· ≤ bound)).map fun n => -(n : Int)
  | _ => (readUnsigned 10 bound s).map Int.ofNat

/-- The decimal text of a whole number. -/
def decimal (n : Int) : List Char :=
  if n < 0 then '-' :: Nat.toDigits 10 n.natAbs else Nat.toDigits 10 n.natAbs

/-- Decimal number that fits 32 bits. -/
def readNat32 (s : List Char) : Option Nat := readUnsigned 10 0x100000000 s

/-- Decimal number that fits 64 bits. -/
def readNat64 (s : List Char) : Option Nat := readUnsigned 10 0x10000000000000000 s

/-- Signed decimal number that fits 32 bits. -/
def readInt32 (s : List Char) : Option Int := readSigned 0x80000000 s

/-- Signed decimal number that fits 64 bits. -/
def readInt64 (s : List Char) : Option Int := readSigned 0x8000000000000000 s

end PanelSkin.Text
