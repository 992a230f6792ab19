import Mathlib.Algebra.Group.Int.Defs
import PanelSkin.Graphics.Rect

/-!
Numbers in words. Coordinates are integers here, where no sum is too large. A surface has words of
32 bits for them, and computes in wider ones what may become longer on the way. Held in words a
computation comes to nothing as soon as some result does not fit, or a divisor is zero; so one that
comes to something has not met that.
-/

namespace PanelSkin

/-- The integers of so many bits, one of which is for the sign. -/
def IsWord (bits : Nat) (n : Int) : Prop := -2 ^ (bits - 1) ≤ n ∧ n < 2 ^ (bits - 1)

instance (bits : Nat) (n : Int) : Decidable (IsWord bits n) :=
  inferInstanceAs (Decidable (_ ∧ _))

/-- A result in a word, if it fits. -/
def word? (bits : Nat) (n : Int) : Option Int := if IsWord bits n then some n else none

theorem word?_of_isWord {bits : Nat} {n : Int} (h : IsWord bits n) : word? bits n = some n :=
  if_pos h

theorem eq_of_word? {bits : Nat} {n m : Int} (h : word? bits n = some m) : m = n :=
  (Option.some.inj (Option.ite_none_right_eq_some.mp h).2).symm

/-- A quotient, rounded towards zero, in a word. -/
def quotient? (bits : Nat) (a b : Int) : Option Int :=
  if b = 0 then none else word? bits (a.tdiv b)

theorem quotient?_of_isWord {bits : Nat} {a b : Int} (hb : b ≠ 0) (h : IsWord bits (a.tdiv b)) :
    quotient? bits a b = some (a.tdiv b) := (if_neg hb).trans (word?_of_isWord h)

theorem Int64.isWord (n : Int64) : IsWord 64 n.toInt := ⟨n.le_toInt, n.toInt_lt⟩

/-- The corners of a rectangle are words of 32 bits. -/
structure Rect.InWords (r : Rect) : Prop where
  x1 : IsWord 32 r.x1
  y1 : IsWord 32 r.y1
  x2 : IsWord 32 r.x2
  y2 : IsWord 32 r.y2

end PanelSkin
