import PanelSkin.Expr.Basic
import PanelSkin.Proofs.Text.Numeral

/-!
The laws of comparing values. Two values are compared by their texts or by their numbers, and which
of the two depends on the pair. For equality this makes no difference, since numbers are written in
one way only. For the order it does: three values are ordered by one of the two, and so
transitively, unless exactly one of them is a text; then two pairs are compared by text and one by
number, and the two orders need not agree.
-/

namespace PanelSkin

namespace Relation

/-- The same relation seen from the other side. -/
def converse : Relation → Relation
  | .gt => .lt
  | .lt => .gt
  | .ge => .le
  | .le => .ge
  | .equal => .equal
  | .eq => .eq
  | .ne => .ne

/-- The relation that holds where this one does not. -/
def opposite : Relation → Relation
  | .gt => .le
  | .lt => .ge
  | .ge => .lt
  | .le => .gt
  | .equal => .ne
  | .eq => .ne
  | .ne => .equal

/-- Whether a value stands in the relation to another. -/
def between (r : Relation) (a b : Value) : Bool := r.holds (a.compare b)

theorem holds_converse (r : Relation) (o : Ordering) : r.converse.holds o.swap = r.holds o := by
  cases r <;> cases o <;> rfl

theorem holds_opposite (r : Relation) (o : Ordering) : r.opposite.holds o = !r.holds o := by
  cases r <;> cases o <;> rfl

/-- In a transitive order all relations but the one of different values are transitive. -/
theorem holds_trans {α : Type} {order : α → α → Ordering} [Std.TransCmp order] {r : Relation}
    (hr : r ≠ .ne) {a b c : α} (hfirst : r.holds (order a b) = true)
    (hsecond : r.holds (order b c) = true) : r.holds (order a c) = true := by
  cases r with
  | equal | eq =>
      simp only [holds, beq_iff_eq] at hfirst hsecond ⊢
      exact Std.TransCmp.eq_trans hfirst hsecond
  | gt =>
      simp only [holds, beq_iff_eq] at hfirst hsecond ⊢
      exact Std.TransCmp.gt_trans hfirst hsecond
  | lt =>
      simp only [holds, beq_iff_eq] at hfirst hsecond ⊢
      exact Std.TransCmp.lt_trans hfirst hsecond
  | ge =>
      simp only [holds, bne_iff_ne, Ordering.ne_lt_iff_isGE] at hfirst hsecond ⊢
      exact Std.TransCmp.isGE_trans hfirst hsecond
  | le =>
      simp only [holds, bne_iff_ne, Ordering.ne_gt_iff_isLE] at hfirst hsecond ⊢
      exact Std.TransCmp.isLE_trans hfirst hsecond
  | ne => exact absurd rfl hr

end Relation

namespace Value

theorem compare_by_text {a b : Value} (h : (a.isText || b.isText) = true) :
    a.compare b = Ord.compare a.asText b.asText := if_pos h

theorem compare_by_number {a b : Value} (h : (a.isText || b.isText) = false) :
    a.compare b = Ord.compare a.asNumber b.asNumber := by
  rw [compare, h, if_neg Bool.false_ne_true]

/-- A value that is no text has the text of its number. -/
theorem asText_of_isText_eq_false {a : Value} (h : a.isText = false) :
    a.asText = String.ofList (Text.decimal a.asNumber.toInt) := by
  cases a with
  | text s => cases h
  | number n => rfl
  | boolean b => cases b <;> decide +kernel

theorem decimal_inj {m n : Int64} : Text.decimal m.toInt = Text.decimal n.toInt ↔ m = n := by
  constructor
  · intro h
    have hread := Text.readInt64_decimal m
    rw [h, Text.readInt64_decimal, Option.some_inj] at hread
    exact (Int64.toInt_inj.mp hread).symm
  · rintro rfl
    rfl

theorem compare_eq_eq_iff (a b : Value) : a.compare b = .eq ↔ a.asText = b.asText := by
  cases h : a.isText || b.isText with
  | true => rw [compare_by_text h, Std.compare_eq_iff_eq]
  | false =>
      obtain ⟨ha, hb⟩ := Bool.or_eq_false_iff.mp h
      rw [compare_by_number h, Std.compare_eq_iff_eq, asText_of_isText_eq_false ha,
        asText_of_isText_eq_false hb, String.ofList_inj, decimal_inj]

theorem compare_swap (a b : Value) : b.compare a = (a.compare b).swap := by
  cases h : a.isText || b.isText with
  | true =>
      rw [compare_by_text h, compare_by_text (Bool.or_comm _ _ ▸ h)]
      exact Std.OrientedOrd.eq_swap
  | false =>
      rw [compare_by_number h, compare_by_number (Bool.or_comm _ _ ▸ h)]
      exact Std.OrientedOrd.eq_swap

/-- Unless exactly one of three is a text, all are numbers or every two have a text among them. -/
private theorem none_or_in_pairs (p q r : Bool) (h : [p, q, r].count true ≠ 1) :
    ((p || q) = false ∧ (q || r) = false ∧ (p || r) = false) ∨
      ((p || q) = true ∧ (q || r) = true ∧ (p || r) = true) := by
  revert p q r
  decide

end Value

open Value

namespace Relation

/-- Three values are ordered by one order, unless exactly one of them is a text. -/
theorem between_trans {a b c : Value} (hkinds : [a.isText, b.isText, c.isText].count true ≠ 1)
    {r : Relation} (hr : r ≠ .ne) (hfirst : r.between a b = true)
    (hsecond : r.between b c = true) : r.between a c = true := by
  unfold between at hfirst hsecond ⊢
  rcases none_or_in_pairs _ _ _ hkinds with ⟨hab, hbc, hac⟩ | ⟨hab, hbc, hac⟩
  · rw [compare_by_number hab] at hfirst
    rw [compare_by_number hbc] at hsecond
    rw [compare_by_number hac]
    exact holds_trans hr hfirst hsecond
  · rw [compare_by_text hab] at hfirst
    rw [compare_by_text hbc] at hsecond
    rw [compare_by_text hac]
    exact holds_trans hr hfirst hsecond

/-- With one text at any of the three places there are values in a circle: 9 is less than 10, and as
texts both "10" is less than "5" and "5" less than "9". -/
theorem exists_circle {first second third : Bool} (h : [first, second, third].count true = 1) :
    ∃ a b c : Value, a.isText = first ∧ b.isText = second ∧ c.isText = third ∧
      lt.between a b = true ∧ lt.between b c = true ∧ lt.between c a = true := by
  have hnumbers : lt.between (.number 9) (.number 10) = true := by decide +kernel
  have hlow : lt.between (.number 10) (.text "5") = true := by decide +kernel
  have hhigh : lt.between (.text "5") (.number 9) = true := by decide +kernel
  cases first <;> cases second <;> cases third <;> simp at h
  · exact ⟨_, _, _, rfl, rfl, rfl, hnumbers, hlow, hhigh⟩
  · exact ⟨_, _, _, rfl, rfl, rfl, hlow, hhigh, hnumbers⟩
  · exact ⟨_, _, _, rfl, rfl, rfl, hhigh, hnumbers, hlow⟩

theorem equal_between_iff (a b : Value) : equal.between a b = true ↔ a.asText = b.asText := by
  rw [between, holds, beq_iff_eq, compare_eq_eq_iff]

theorem equivalence_equal : Equivalence fun a b : Value => equal.between a b = true where
  refl a := (equal_between_iff a a).mpr rfl
  symm {a b} h := (equal_between_iff b a).mpr ((equal_between_iff a b).mp h).symm
  trans {a b c} hfirst hsecond := by
    rw [equal_between_iff] at hfirst hsecond ⊢
    exact hfirst.trans hsecond

/-- The transitive relations are so on three values of given kinds exactly if not one alone of the
three is a text. -/
theorem between_trans_iff (first second third : Bool) :
    (∀ a b c : Value, a.isText = first → b.isText = second → c.isText = third →
        ∀ r : Relation, r ≠ .ne → r.between a b = true → r.between b c = true →
          r.between a c = true) ↔
      [first, second, third].count true ≠ 1 := by
  constructor
  · intro htrans hone
    obtain ⟨a, b, c, ha, hb, hc, hfirst, hsecond, hback⟩ := exists_circle hone
    have hforth := htrans a b c ha hb hc .lt nofun hfirst hsecond
    rw [between, compare_swap] at hback
    rw [between] at hforth
    cases horder : a.compare c <;> rw [horder] at hback hforth <;> contradiction
  · rintro hkinds a b c rfl rfl rfl r hr
    exact between_trans hkinds hr

/-- The laws of comparison. Values of any kinds are equal if their texts are, which is an
equivalence. Exchanging the sides turns the order round, so that each relation is its converse from
the other side; each is false where its opposite is true; and of less, equal and greater exactly one
holds. Three values are ordered transitively if not exactly one of them is a text, and only then for
all values of these kinds. The operators of expressions answer with these relations. -/
theorem comparison_laws :
    (∀ a b : Value, equal.between a b = true ↔ a.asText = b.asText) ∧
    (Equivalence fun a b : Value => equal.between a b = true) ∧
    (∀ a b : Value, b.compare a = (a.compare b).swap) ∧
    (∀ (r : Relation) (a b : Value), r.converse.between b a = r.between a b ∧
      r.opposite.between a b = !r.between a b) ∧
    (∀ a b : Value, [lt.between a b, equal.between a b, gt.between a b].count true = 1) ∧
    (∀ first second third : Bool,
      (∀ a b c : Value, a.isText = first → b.isText = second → c.isText = third →
          ∀ r : Relation, r ≠ .ne → r.between a b = true → r.between b c = true →
            r.between a c = true) ↔
        [first, second, third].count true ≠ 1) ∧
    ∀ (m : Type → Type) [Monad m] (lookups : Lookups m) (r : Relation)
      (x y : Expr), (Expr.call (.compare r) [x, y]).evaluate lookups = do
        let a ← x.evaluate lookups
        let b ← y.evaluate lookups
        return .boolean (r.between a b) := by
  refine ⟨equal_between_iff, equivalence_equal, compare_swap, ?_, ?_, between_trans_iff, ?_⟩
  · intro r a b
    constructor
    · rw [between, compare_swap, holds_converse, between]
    · rw [between, holds_opposite, between]
  · intro a b
    unfold between
    cases a.compare b <;> rfl
  · intro m _ lookups r x y
    simp only [Expr.evaluate, Expr.evaluateAt, between]

end Relation

end PanelSkin
