import Mathlib.Algebra.Order.Field.Basic
import Mathlib.Algebra.Order.Field.Rat
import Mathlib.Tactic.FieldSimp
import Mathlib.Tactic.Linarith
import Mathlib.Tactic.Ring

/-!
A distance in equal parts, each rounded to the nearest whole number. From one part to the next a
distance that is not longer than the number of parts grows by one or not at all, and which of the
two it is can be told from how far two such distances have got against each other.
-/

namespace PanelSkin

/-- How far `k` of `n` equal parts of a distance reach, to the nearest whole number; a half goes
up. -/
def share (n distance k : Int) : Int := (2 * k * distance + n) / (2 * n)

section Share

variable {n d k q : Int}

theorem share_spec (hn : 0 < n) (d k : Int) :
    2 * n * share n d k ≤ 2 * k * d + n ∧ 2 * k * d + n < 2 * n * (share n d k + 1) := by
  have hpos : 0 < 2 * n := by omega
  have hbelow := Int.mul_ediv_self_le (x := 2 * k * d + n) (k := 2 * n) (by omega)
  have habove := Int.lt_mul_ediv_self_add (x := 2 * k * d + n) hpos
  unfold share
  constructor
  · exact hbelow
  · linarith

theorem share_unique (hn : 0 < n) (hbelow : 2 * n * q ≤ 2 * k * d + n)
    (habove : 2 * k * d + n < 2 * n * (q + 1)) : share n d k = q := by
  obtain ⟨hle, hlt⟩ := share_spec hn d k
  have hpos : 0 < 2 * n := by omega
  have hfirst : share n d k < q + 1 := Int.lt_of_mul_lt_mul_left (hle.trans_lt habove) hpos.le
  have hsecond : q < share n d k + 1 := Int.lt_of_mul_lt_mul_left (hbelow.trans_lt hlt) hpos.le
  omega

theorem share_zero (hn : 0 ≤ n) (d : Int) : share n d 0 = 0 := by
  obtain hpos | rfl := hn.lt_or_eq
  · exact share_unique hpos (by linarith) (by linarith)
  · exact Int.ediv_zero _

/-- All parts reach all the way. -/
theorem share_all (hn : 0 < n) (d : Int) : share n d n = d :=
  share_unique hn (by linarith) (by linarith)

/-- Parts of length one are counted. -/
theorem share_self (hn : 0 < n) (k : Int) : share n n k = k :=
  share_unique hn (by linarith) (by linarith)

theorem share_succ_eq_iff (hn : 0 < n) (hd : d ≤ n) :
    share n d (k + 1) = share n d k + 1 ↔ 2 * n * (share n d k + 1) ≤ 2 * (k + 1) * d + n := by
  obtain ⟨-, hlt⟩ := share_spec hn d k
  constructor
  · intro hsucc
    obtain ⟨hle, -⟩ := share_spec hn d (k + 1)
    rwa [hsucc] at hle
  · intro hle
    exact share_unique hn hle (by linarith)

/-- With one more part it is no more than one further, unless the parts are longer than that. -/
theorem share_succ_of_ne (hn : 0 < n) (hd : 0 ≤ d) (hd' : d ≤ n)
    (hne : share n d (k + 1) ≠ share n d k + 1) : share n d (k + 1) = share n d k := by
  obtain ⟨hle, -⟩ := share_spec hn d k
  have hlt := not_le.mp fun h => hne ((share_succ_eq_iff hn hd').mpr h)
  exact share_unique hn (by linarith) hlt

theorem share_succ_cases (hn : 0 < n) (hd : 0 ≤ d) (hd' : d ≤ n) :
    share n d (k + 1) = share n d k ∨ share n d (k + 1) = share n d k + 1 :=
  or_iff_not_imp_right.mpr (share_succ_of_ne hn hd hd')

theorem share_bounds (hn : 0 < n) (hd : 0 ≤ d) (hk : 0 ≤ k) (hk' : k ≤ n) :
    0 ≤ share n d k ∧ share n d k ≤ d := by
  obtain ⟨hle, hlt⟩ := share_spec hn d k
  have hpos : 0 < 2 * n := by omega
  have hnonneg : 0 ≤ k * d := Int.mul_nonneg hk hd
  have hpart : k * d ≤ n * d := Int.mul_le_mul_of_nonneg_right hk' hd
  have hfirst : 0 < share n d k + 1 := by
    apply Int.lt_of_mul_lt_mul_left (a := 2 * n) _ hpos.le
    linarith
  have hsecond : share n d k < d + 1 := by
    apply Int.lt_of_mul_lt_mul_left (a := 2 * n) _ hpos.le
    linarith
  omega

/-- The share is the nearest whole number. -/
theorem share_near (hn : 0 < n) (d k : Int) : |(share n d k : ℚ) - k * d / n| ≤ 1 / 2 := by
  obtain ⟨hle, hlt⟩ := share_spec hn d k
  have hn' : (0 : ℚ) < n := by exact_mod_cast hn
  have hle' : (2 * n * share n d k : ℚ) ≤ 2 * k * d + n := by exact_mod_cast hle
  have hlt' : (2 * k * d + n : ℚ) < 2 * n * (share n d k + 1) := by exact_mod_cast hlt
  have hquotient : (share n d k : ℚ) - k * d / n = (2 * n * share n d k - 2 * k * d) / (2 * n) := by
    field_simp
  rw [hquotient, abs_div, abs_of_pos (by linarith : (0 : ℚ) < 2 * n), div_le_iff₀ (by linarith),
    abs_le]
  constructor
  · linarith
  · linarith

/-- On both sides together the pen keeps on the line: what it is ahead on one of them is less than
half a part. -/
theorem strayed_bounds (hn : 0 < n) (hlong : d = n ∨ q = n) :
    -n ≤ 2 * (share n q k * d - share n d k * q) ∧
      2 * (share n q k * d - share n d k * q) ≤ n := by
  obtain ⟨hle, hlt⟩ := share_spec hn d k
  obtain ⟨hle', hlt'⟩ := share_spec hn q k
  obtain rfl | rfl := hlong
  · rw [share_self hn] at *
    constructor
    · linarith
    · linarith
  · rw [share_self hn] at *
    constructor
    · linarith
    · linarith

/-- The rule by which the loop moves the pen along one side picks the rounds in which the share of
that side grows. -/
theorem due_iff (hn : 0 < n) (hd : d ≤ n) (hq : q ≤ n) (hlong : d = n ∨ q = n) :
    -q ≤ 2 * (d - q - share n d k * q + share n q k * d) ↔
      share n d (k + 1) = share n d k + 1 := by
  obtain rfl | rfl := hlong
  · obtain ⟨-, hlt⟩ := share_spec hn q k
    rw [share_self hn, share_self hn]
    exact iff_of_true (by linarith) rfl
  · rw [share_succ_eq_iff hn hd, share_self hn]
    constructor
    · intro h
      linarith
    · intro h
      linarith

end Share

end PanelSkin
