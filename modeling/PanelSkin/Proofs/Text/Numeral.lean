import Mathlib.Data.List.Forall2
import Mathlib.Data.Nat.Digits.Defs
import Mathlib.Tactic.IntervalCases
import Mathlib.Tactic.Ring
import PanelSkin.Text.Numeral

/-!
Whole numbers written in decimal are read as themselves, in the range of the reader. In any base
up to sixteen what is read without a sign, or with a plus sign, is exactly what digits write.
-/

namespace PanelSkin.Text

theorem toNat_of_isDigit {c : Char} (h : c.isDigit = true) : 48 ≤ c.toNat ∧ c.toNat ≤ 57 := by
  obtain ⟨hleast, hgreatest⟩ := Bool.and_eq_true_iff.mp h
  exact ⟨UInt32.le_iff_toNat_le.mp (of_decide_eq_true hleast),
    UInt32.le_iff_toNat_le.mp (of_decide_eq_true hgreatest)⟩

theorem toNat_of_isAlpha {c : Char} (h : c.isAlpha = true) :
    65 ≤ c.toNat ∧ c.toNat ≤ 90 ∨ 97 ≤ c.toNat ∧ c.toNat ≤ 122 := by
  rcases Bool.or_eq_true_iff.mp h with hupper | hlower
  · obtain ⟨hleast, hgreatest⟩ := of_decide_eq_true hupper
    exact .inl ⟨UInt32.le_iff_toNat_le.mp hleast, UInt32.le_iff_toNat_le.mp hgreatest⟩
  · obtain ⟨hleast, hgreatest⟩ := Bool.and_eq_true_iff.mp hlower
    exact .inr ⟨UInt32.le_iff_toNat_le.mp (of_decide_eq_true hleast),
      UInt32.le_iff_toNat_le.mp (of_decide_eq_true hgreatest)⟩

theorem digitValue_of_isDigit {c : Char} (h : c.isDigit = true) :
    digitValue c = some (c.toNat - '0'.toNat) ∧ c.toNat - '0'.toNat < 10 := by
  have hcode := toNat_of_isDigit h
  constructor
  · exact if_pos hcode
  · simp only [Char.reduceToNat]
    omega

theorem readDigitsFrom_of_isDigit {s : List Char} (h : ∀ c ∈ s, c.isDigit = true) (acc : Nat) :
    readDigitsFrom 10 acc s = some (Nat.ofDigitChars 10 s acc) := by
  induction s generalizing acc with
  | nil => rfl
  | cons c rest ih =>
      obtain ⟨hfirst, hrest⟩ := List.forall_mem_cons.mp h
      obtain ⟨hvalue, hlt⟩ := digitValue_of_isDigit hfirst
      simp only [readDigitsFrom, hvalue, hlt, if_true, ih hrest, Nat.ofDigitChars_cons,
        Nat.mul_comm]

theorem isDigit_of_mem_toDigits {n : Nat} {c : Char} (h : c ∈ Nat.toDigits 10 n) :
    c.isDigit = true :=
  Nat.isDigit_of_mem_toDigits (by omega) (by omega) h

theorem readDigits_toDigits (n : Nat) : readDigits 10 (Nat.toDigits 10 n) = some n := by
  have hsome : (Nat.toDigits 10 n).isEmpty = false := by simp
  rw [readDigits, hsome, readDigitsFrom_of_isDigit (fun c => isDigit_of_mem_toDigits),
    Nat.ofDigitChars_ten_toDigits]
  rfl

/-- The digits of a number, with the first one apart: no sign is among them. -/
theorem exists_toDigits_eq_cons (n : Nat) :
    ∃ first rest, Nat.toDigits 10 n = first :: rest ∧ first.isDigit = true := by
  cases hdigits : Nat.toDigits 10 n with
  | nil => exact absurd hdigits Nat.toDigits_ne_nil
  | cons first rest =>
      refine ⟨first, rest, rfl, isDigit_of_mem_toDigits (n := n) ?_⟩
      rw [hdigits]
      exact List.mem_cons_self

theorem readUnsigned_toDigits {bound n : Nat} (h : n < bound) :
    readUnsigned 10 bound (Nat.toDigits 10 n) = some n := by
  obtain ⟨first, rest, hdigits, hfirst⟩ := exists_toDigits_eq_cons n
  have hplus : first ≠ '+' := by
    rintro rfl
    cases hfirst
  have hread := readDigits_toDigits n
  rw [hdigits] at hread ⊢
  unfold readUnsigned
  split
  · rename_i hsign
    exact absurd (List.cons.inj hsign).1 hplus
  · dsimp only
    rw [hread]
    simp [Option.filter, h]

theorem readSigned_decimal {bound : Nat} {n : Int} (hleast : -(bound : Int) ≤ n)
    (hmost : n < bound) : readSigned bound (decimal n) = some n := by
  unfold decimal
  by_cases hneg : n < 0
  · have hrange : n.natAbs ≤ bound := by omega
    have hvalue : -(n.natAbs : Int) = n := by omega
    rw [if_pos hneg, readSigned, readDigits_toDigits, Option.filter_some,
      if_pos (decide_eq_true hrange)]
    exact congrArg some hvalue
  · have hrange : n.natAbs < bound := by omega
    have hvalue : Int.ofNat n.natAbs = n := Int.natAbs_of_nonneg (by omega)
    obtain ⟨first, rest, hdigits, hfirst⟩ := exists_toDigits_eq_cons n.natAbs
    have hminus : first ≠ '-' := by
      rintro rfl
      cases hfirst
    have hread := readUnsigned_toDigits hrange
    rw [if_neg hneg]
    rw [hdigits] at hread ⊢
    unfold readSigned
    split
    · rename_i hsign
      exact absurd (List.cons.inj hsign).1 hminus
    · rw [hread, Option.map_some, hvalue]

/-- A decimal number starts with a minus sign or a digit. -/
theorem exists_decimal_eq_cons (n : Int) :
    ∃ c rest, decimal n = c :: rest ∧ (c = '-' ∨ c.isDigit = true) := by
  unfold decimal
  split
  · exact ⟨'-', _, rfl, .inl rfl⟩
  · obtain ⟨first, rest, hdigits, hfirst⟩ := exists_toDigits_eq_cons n.natAbs
    exact ⟨first, rest, hdigits, .inr hfirst⟩

theorem readInt64_decimal (n : Int64) : readInt64 (decimal n.toInt) = some n.toInt := by
  have hleast := n.le_toInt
  have hmost := n.toInt_lt
  exact readSigned_decimal (by omega) (by omega)

/-! Numbers in any base up to sixteen. -/

/-- `c` stands for `d` in a base: a decimal digit, or a letter of either case from ten on. -/
def IsDigit (base : Nat) (c : Char) (d : Nat) : Prop :=
  d < base ∧ (c = d.digitChar ∨ c = d.digitChar.toUpper)

/-- One or more digits of a base write `n`, the first of them with the greatest weight. -/
def Writes (base : Nat) (text : List Char) (n : Nat) : Prop :=
  ∃ digits, digits ≠ [] ∧ List.Forall₂ (IsDigit base) text digits ∧
    n = Nat.ofDigits base digits.reverse

theorem digitValue_eq_some_iff {c : Char} {d : Nat} :
    digitValue c = some d ↔ IsDigit 16 c d := by
  constructor
  · intro h
    unfold digitValue at h
    simp only [Char.reduceToNat] at h
    split_ifs at h with hdecimal hlower hupper
    · have hcode : 48 ≤ c.toNat ∧ c.toNat ≤ 57 := hdecimal
      obtain ⟨hd, hlt⟩ : c.toNat = 48 + d ∧ d < 10 := by
        have hvalue := Option.some.inj h
        omega
      refine ⟨by omega, Or.inl (Char.toNat_inj.mp ?_)⟩
      rw [hd]
      interval_cases d <;> rfl
    · have hcode : 97 ≤ c.toNat ∧ c.toNat ≤ 102 := hlower
      obtain ⟨hd, hleast, hlt⟩ : c.toNat = 87 + d ∧ 10 ≤ d ∧ d < 16 := by
        have hvalue := Option.some.inj h
        omega
      refine ⟨hlt, Or.inl (Char.toNat_inj.mp ?_)⟩
      rw [hd]
      interval_cases d <;> rfl
    · have hcode : 65 ≤ c.toNat ∧ c.toNat ≤ 70 := hupper
      obtain ⟨hd, hleast, hlt⟩ : c.toNat = 55 + d ∧ 10 ≤ d ∧ d < 16 := by
        have hvalue := Option.some.inj h
        omega
      refine ⟨hlt, Or.inr (Char.toNat_inj.mp ?_)⟩
      rw [hd]
      interval_cases d <;> rfl
  · rintro ⟨hlt, hc⟩
    interval_cases d <;> rcases hc with rfl | rfl <;> rfl

/-- Reading goes on to the end over digits of the base, and adds what they write. -/
theorem readDigitsFrom_eq_some_iff {base : Nat} (hbase : base ≤ 16) {acc n : Nat}
    {text : List Char} :
    readDigitsFrom base acc text = some n ↔ ∃ digits, List.Forall₂ (IsDigit base) text digits ∧
      n = acc * base ^ text.length + Nat.ofDigits base digits.reverse := by
  induction text generalizing acc with
  | nil => simp [readDigitsFrom, List.forall₂_nil_left_iff, eq_comm]
  | cons c text ih =>
      have hweight (d : Nat) (rest : List Nat) (hrest : rest.length = text.length) :
          (acc * base + d) * base ^ text.length + Nat.ofDigits base rest.reverse =
            acc * base ^ (c :: text).length + Nat.ofDigits base (d :: rest).reverse := by
        rw [List.reverse_cons, Nat.ofDigits_append, List.length_reverse, hrest,
          Nat.ofDigits_singleton, List.length_cons]
        ring
      simp only [List.forall₂_cons_left_iff]
      constructor
      · intro h
        unfold readDigitsFrom at h
        split at h
        · rename_i d hd
          split_ifs at h with hlt
          obtain ⟨rest, hdigits, rfl⟩ := ih.mp h
          exact ⟨d :: rest, ⟨d, rest, ⟨hlt, (digitValue_eq_some_iff.mp hd).2⟩, hdigits, rfl⟩,
            hweight d rest hdigits.length_eq.symm⟩
        · cases h
      · rintro ⟨_, ⟨d, rest, ⟨hlt, hc⟩, hdigits, rfl⟩, rfl⟩
        have hd : digitValue c = some d := digitValue_eq_some_iff.mpr ⟨by omega, hc⟩
        simp only [readDigitsFrom, hd, hlt, if_true]
        exact ih.mpr ⟨rest, hdigits, (hweight d rest hdigits.length_eq.symm).symm⟩

theorem readDigits_eq_some_iff {base : Nat} (hbase : base ≤ 16) {n : Nat} {text : List Char} :
    readDigits base text = some n ↔ Writes base text n := by
  unfold readDigits Writes
  cases text with
  | nil => simp [List.forall₂_nil_left_iff]
  | cons c text =>
      rw [List.isEmpty_cons, if_neg Bool.false_ne_true, readDigitsFrom_eq_some_iff hbase]
      simp only [Nat.zero_mul, Nat.zero_add]
      refine exists_congr fun digits => ⟨?_, And.right⟩
      rintro ⟨hdigits, hn⟩
      refine ⟨?_, hdigits, hn⟩
      rintro rfl
      cases hdigits

/-- Digits are no signs and no other marks. -/
theorem IsDigit.isAlphanum {base : Nat} (hbase : base ≤ 16) {c : Char} {d : Nat}
    (h : IsDigit base c d) : c.isAlphanum = true := by
  obtain ⟨hlt, hc⟩ := h
  have hsmall : d < 16 := by omega
  interval_cases d <;> rcases hc with rfl | rfl <;> rfl

theorem Writes.forall_mem {base : Nat} {p : Char → Prop} (hp : ∀ c d, IsDigit base c d → p c)
    {text : List Char} {n : Nat} (h : Writes base text n) : ∀ c ∈ text, p c := by
  obtain ⟨digits, -, hdigits, -⟩ := h
  have hall := hdigits.imp fun c d hd => And.intro (hp c d hd) hd
  exact ((List.forall₂_and_left text digits).mp hall).1

theorem Writes.isAlphanum {base : Nat} (hbase : base ≤ 16) {text : List Char} {n : Nat}
    (h : Writes base text n) : ∀ c ∈ text, c.isAlphanum = true :=
  h.forall_mem fun _ _ hd => hd.isAlphanum hbase

theorem Writes.isDigit {text : List Char} {n : Nat} (h : Writes 10 text n) :
    ∀ c ∈ text, c.isDigit = true := by
  refine h.forall_mem fun c d ⟨hlt, hc⟩ => ?_
  interval_cases d <;> rcases hc with rfl | rfl <;> rfl

theorem Writes.ne_nil {base : Nat} {text : List Char} {n : Nat} (h : Writes base text n) :
    text ≠ [] := by
  rintro rfl
  obtain ⟨digits, hsome, hdigits, -⟩ := h
  exact hsome (List.forall₂_nil_left_iff.mp hdigits)

/-- As many digits as there are write numbers below that power of the base. -/
theorem Writes.lt_pow {base : Nat} (hbase : 1 < base) {text : List Char} {n : Nat}
    (h : Writes base text n) : n < base ^ text.length := by
  obtain ⟨digits, -, hdigits, rfl⟩ := h
  have hall := hdigits.flip.imp fun d c hd => And.intro hd.1 hd
  have hlt := ((List.forall₂_and_left digits text).mp hall).1
  rw [hdigits.length_eq, ← List.length_reverse]
  exact Nat.ofDigits_lt_base_pow_length hbase fun d hd => hlt d (List.mem_reverse.mp hd)

/-- A plus sign may stand before the digits. -/
theorem readUnsigned_eq_some_iff {base bound n : Nat} (hbase : base ≤ 16) {text : List Char} :
    readUnsigned base bound text = some n ↔
      ∃ sign digits, text = sign ++ digits ∧ (sign = [] ∨ sign = ['+']) ∧ Writes base digits n ∧
        n < bound := by
  have hfilter (digits : List Char) : (readDigits base digits).filter (· < bound) = some n ↔
      Writes base digits n ∧ n < bound := by
    rw [Option.filter_eq_some_iff, readDigits_eq_some_iff hbase, decide_eq_true_eq]
  unfold readUnsigned
  split
  · rename_i rest
    rw [hfilter]
    constructor
    · rintro ⟨hwrites, hlt⟩
      exact ⟨['+'], rest, rfl, Or.inr rfl, hwrites, hlt⟩
    · rintro ⟨sign, digits, htext, rfl | rfl, hwrites, hlt⟩
      · -- a plus sign is no digit
        obtain rfl : '+' :: rest = digits := htext
        cases hwrites.isAlphanum hbase '+' List.mem_cons_self
      · obtain rfl := (List.cons.inj htext).2
        exact ⟨hwrites, hlt⟩
  · rename_i hplain
    rw [hfilter]
    constructor
    · rintro ⟨hwrites, hlt⟩
      exact ⟨[], text, rfl, Or.inl rfl, hwrites, hlt⟩
    · rintro ⟨sign, digits, rfl, rfl | rfl, hwrites, hlt⟩
      · exact ⟨hwrites, hlt⟩
      · exact absurd rfl (hplain digits)

end PanelSkin.Text
