import PanelSkin.Text.Blank
import PanelSkin.Text.Numeral

/-!
The values of expressions: texts, 64-bit numbers and truth values, with their views as each
other and the one order on all of them. Two values compare as texts when one of them is a text,
and as numbers otherwise.
-/

namespace PanelSkin

/-- Result of an expression. Numbers are words: their arithmetic wraps. -/
inductive Value where
  | text (s : String)
  | number (n : Int64)
  | boolean (b : Bool)
  deriving DecidableEq, Repr

namespace Value

instance : Inhabited Value := ⟨.text ""⟩

/-- A whole number as a value, reduced to 64 bits. -/
def ofInt (n : Int) : Value := .number (Int64.ofInt n)

/-- The number written by leading digits, modulo 2^64. -/
def wrapDigits (acc : Int64) : List Char → Int64
  | [] => acc
  | c :: rest =>
    if '0' ≤ c ∧ c ≤ '9' then wrapDigits (acc * 10 + Int64.ofNat (c.toNat - '0'.toNat)) rest
    else acc

/-- The integer at the start of a text, after blanks and a sign; zero when there is none. -/
def leadingInteger (s : List Char) : Int64 :=
  match Text.trimStart s with
  | '-' :: digits => -wrapDigits 0 digits
  | '+' :: digits => wrapDigits 0 digits
  | digits => wrapDigits 0 digits

/-- The value as a number: a text counts for its leading integer. -/
def asNumber : Value → Int64
  | .text s => leadingInteger s.toList
  | .number n => n
  | .boolean b => if b then 1 else 0

/-- The value as a truth value: the empty text and zero are false. -/
def asBool : Value → Bool
  | .text s => !s.isEmpty
  | .number n => n != 0
  | .boolean b => b

/-- The value as a text: numbers in decimal, truth values as 1 and 0. -/
def asText : Value → String
  | .text s => s
  | .number n => String.ofList (Text.decimal n.toInt)
  | .boolean b => if b then "1" else "0"

def isText : Value → Bool
  | .text _ => true
  | _ => false

/-- The three-way order: by text if either side is one, by number otherwise. -/
def compare (a b : Value) : Ordering :=
  if a.isText || b.isText then Ord.compare a.asText b.asText
  else Ord.compare a.asNumber b.asNumber

end Value

end PanelSkin
