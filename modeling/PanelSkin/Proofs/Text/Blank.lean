import PanelSkin.Proofs.Text.Numeral
import PanelSkin.Text.Blank

/-!
The blank start of a text is skipped as a whole, and only it. A text without blanks has no blank
ends.
-/

namespace PanelSkin.Text

theorem trimStart_gap {gap : List Char} (hgap : ∀ c ∈ gap, isBlank c = true) (rest : List Char) :
    trimStart (gap ++ rest) = trimStart rest :=
  List.dropWhile_append_of_pos hgap

theorem trimStart_cons {c : Char} (hc : isBlank c = false) (rest : List Char) :
    trimStart (c :: rest) = c :: rest := by
  simp [trimStart, hc]

theorem trimStart_trimStart (s : List Char) : trimStart (trimStart s) = trimStart s := by
  induction s with
  | nil => rfl
  | cons c rest ih =>
      cases hblank : isBlank c with
      | false => rw [trimStart_cons hblank, trimStart_cons hblank]
      | true =>
          have hskip : trimStart (c :: rest) = trimStart rest := by
            simp [trimStart, hblank]
          rw [hskip, ih]

theorem trimStart_of_forall {s : List Char} (h : ∀ c ∈ s, isBlank c = false) : trimStart s = s := by
  cases s with
  | nil => rfl
  | cons c rest => exact trimStart_cons (h c List.mem_cons_self) rest

theorem trim_of_forall {s : List Char} (h : ∀ c ∈ s, isBlank c = false) : trim s = s := by
  have hreverse : s.reverse.dropWhile isBlank = s.reverse :=
    trimStart_of_forall fun c hc => h c (List.mem_reverse.mp hc)
  rw [trim, trimStart_of_forall h, trimEnd, hreverse, List.reverse_reverse]

theorem isBlank_of_isAlphanum {c : Char} (h : c.isAlphanum = true) : isBlank c = false := by
  have hcode : (65 ≤ c.toNat ∧ c.toNat ≤ 90 ∨ 97 ≤ c.toNat ∧ c.toNat ≤ 122) ∨
      48 ≤ c.toNat ∧ c.toNat ≤ 57 :=
    (Bool.or_eq_true_iff.mp h).imp toNat_of_isAlpha toNat_of_isDigit
  simp [isBlank, isBlankCode]
  omega

end PanelSkin.Text
