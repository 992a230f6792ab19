import Mathlib.Algebra.Order.Ring.Abs
import Mathlib.Tactic.Linarith
import Mathlib.Tactic.Ring
import Mathlib.Tactic.Tauto
import PanelSkin.Graphics.Shape
import PanelSkin.Proofs.Graphics.Region
import PanelSkin.Proofs.Graphics.Word

/-!
The test for the inside of an ellipse in words of 128 bits. It compares products of four lengths.
For a whole ellipse none of these is longer than a side of its box, and the products fit whatever
the box is. A quadrant has radii twice as long as its box, which must not be too large then.
-/

namespace PanelSkin

section Squares

variable {a b : Int}

theorem mul_mul_mul_eq_sq (a b : Int) : a * a * b * b = (a * b) ^ 2 := by ring

theorem prod_eq_sq (a b : Int) : [a, a, b, b].prod = (a * b) ^ 2 := by
  simp only [List.prod_cons, List.prod_nil]
  ring

theorem abs_mul_lt {m n bound : Int} (ha : |a| ≤ m) (hb : 0 ≤ b) (hn : b ≤ n)
    (h : m * n < bound) : |a * b| < bound := by
  rw [abs_mul, abs_of_nonneg hb]
  exact (mul_le_mul ha hn hb ((abs_nonneg a).trans ha)).trans_lt h

end Squares

namespace Rect

/-- The results on the way to a product, factor by factor. -/
def partialProducts (factors : List Int) : List Int := factors.scanl (· * ·) 1

theorem wide?_of_isWord {n : Int} (h : IsWord 128 n) : wide? n = some n :=
  if_pos ⟨h.1, Int.le_of_lt_add_one h.2⟩

theorem product?_of_isWord {factors : List Int}
    (h : ∀ n ∈ partialProducts factors, IsWord 128 n) : product? factors = some factors.prod := by
  -- the product is gathered from the left, so the induction is on the factors from any start
  suffices hfrom : ∀ start : Int, (∀ n ∈ factors.scanl (· * ·) start, IsWord 128 n) →
      factors.foldlM (fun product factor => wide? (product * factor)) start
        = some (start * factors.prod) by
    rw [product?, hfrom 1 h, one_mul]
  clear h
  intro start h
  induction factors generalizing start with
  | nil => simp
  | cons a factors ih =>
    have hrest : ∀ n ∈ factors.scanl (· * ·) (start * a), IsWord 128 n := fun n hn =>
      h n (by rw [List.scanl_cons]; exact List.mem_cons_of_mem _ hn)
    have hfirst : IsWord 128 (start * a) := hrest _ (by cases factors <;> simp)
    rw [List.foldlM_cons, wide?_of_isWord hfirst, List.prod_cons, ← mul_assoc]
    exact ih _ hrest

/-- Two lengths whose product is at most 2 ^ 63 are squared and multiplied in words. -/
theorem isWord_of_mem_partialProducts {a b : Int} (hb : 1 ≤ b) (hlower : -2 ^ 63 ≤ a * b)
    (hupper : a * b ≤ 2 ^ 63) : ∀ n ∈ partialProducts [a, a, b, b], IsWord 128 n := by
  have hall : a * a * b * b ≤ 2 ^ 126 := by
    rw [mul_mul_mul_eq_sq]
    exact sq_le_sq' hlower hupper
  have hzero : 0 ≤ a * a := mul_self_nonneg a
  have hself : a ≤ a * a ∧ -a ≤ a * a := by constructor <;> nlinarith
  have hsquare : a * a ≤ a * a * b := le_mul_of_one_le_right hzero hb
  have hlast : a * a * b ≤ a * a * b * b := le_mul_of_one_le_right (by omega) hb
  intro n hn
  simp only [partialProducts, List.scanl_cons, List.scanl_nil, one_mul, List.mem_cons,
    List.not_mem_nil, or_false] at hn
  unfold IsWord
  omega

namespace Oval

variable {o : Oval} {x y : Int}

/-- Whether the centre of a pixel lies in the oval. -/
def Holds (o : Oval) (x y : Int) : Prop :=
  (o.across x * o.ry) ^ 2 + (o.down y * o.rx) ^ 2 ≤ (o.rx * o.ry) ^ 2

instance (o : Oval) (x y : Int) : Decidable (o.Holds x y) :=
  inferInstanceAs (Decidable (_ ≤ _))

/-- The numbers that come up in the test of a pixel. -/
def results (o : Oval) (x y : Int) : List Int :=
  [o.cx, o.cy, o.rx, o.ry]
    ++ partialProducts [o.across x, o.across x, o.ry, o.ry]
    ++ partialProducts [o.down y, o.down y, o.rx, o.rx]
    ++ [o.across x * o.across x * o.ry * o.ry + o.down y * o.down y * o.rx * o.rx]
    ++ partialProducts [o.rx, o.rx, o.ry, o.ry]

/-- The lengths of a test are such that its numbers fit into words of 128 bits. -/
structure Measured (o : Oval) (x y : Int) : Prop where
  cx : IsWord 64 o.cx
  cy : IsWord 64 o.cy
  rx : 1 ≤ o.rx
  ry : 1 ≤ o.ry
  radii : o.rx * o.ry ≤ 2 ^ 63
  across : |o.across x * o.ry| < 2 ^ 63
  down : |o.down y * o.rx| < 2 ^ 63

theorem measured_of_le {m n w h : Int} (hcx : IsWord 64 o.cx) (hcy : IsWord 64 o.cy)
    (hrx : 1 ≤ o.rx ∧ o.rx ≤ w) (hry : 1 ≤ o.ry ∧ o.ry ≤ h) (hacross : |o.across x| ≤ m)
    (hdown : |o.down y| ≤ n) (hradii : w * h ≤ 2 ^ 63) (hwide : m * h < 2 ^ 63)
    (hhigh : n * w < 2 ^ 63) : o.Measured x y where
  cx := hcx
  cy := hcy
  rx := hrx.1
  ry := hry.1
  radii := (mul_le_mul hrx.2 hry.2 (by omega) (by omega)).trans hradii
  across := abs_mul_lt hacross (by omega) hry.2 hwide
  down := abs_mul_lt hdown (by omega) hrx.2 hhigh

theorem Measured.isWord_results (h : o.Measured x y) : ∀ n ∈ o.results x y, IsWord 128 n := by
  obtain ⟨hcx, hcy, hrx, hry, hradii, hacross, hdown⟩ := h
  rw [abs_lt] at hacross hdown
  have hwidth : o.rx ≤ o.rx * o.ry := le_mul_of_one_le_right (by omega) hry
  have hheight : o.ry ≤ o.rx * o.ry := le_mul_of_one_le_left (by omega) hrx
  have hsum : IsWord 128
      (o.across x * o.across x * o.ry * o.ry + o.down y * o.down y * o.rx * o.rx) := by
    rw [mul_mul_mul_eq_sq, mul_mul_mul_eq_sq]
    have hfirst : (o.across x * o.ry) ^ 2 ≤ (2 ^ 63 - 1) ^ 2 := sq_le_sq' (by omega) (by omega)
    have hsecond : (o.down y * o.rx) ^ 2 ≤ (2 ^ 63 - 1) ^ 2 := sq_le_sq' (by omega) (by omega)
    have hnonneg := add_nonneg (sq_nonneg (o.across x * o.ry)) (sq_nonneg (o.down y * o.rx))
    unfold IsWord
    omega
  unfold results
  simp only [List.forall_mem_append, List.forall_mem_cons, List.not_mem_nil, false_imp_iff,
    implies_true, and_true]
  refine ⟨⟨⟨⟨⟨?_, ?_, ?_, ?_⟩, ?_⟩, ?_⟩, hsum⟩, ?_⟩
  · unfold IsWord at *
    omega
  · unfold IsWord at *
    omega
  · unfold IsWord
    omega
  · unfold IsWord
    omega
  · exact isWord_of_mem_partialProducts hry (by omega) (by omega)
  · exact isWord_of_mem_partialProducts hrx (by omega) (by omega)
  · exact isWord_of_mem_partialProducts hry (by omega) hradii

theorem holds?_of_isWord (h : ∀ n ∈ o.results x y, IsWord 128 n) :
    o.holds? x y = some (decide (o.Holds x y)) := by
  unfold results at h
  simp only [List.forall_mem_append, List.forall_mem_cons, List.not_mem_nil, false_imp_iff,
    implies_true, and_true, mul_mul_mul_eq_sq] at h
  obtain ⟨⟨⟨⟨-, hacross⟩, hdown⟩, hsum⟩, hradii⟩ := h
  unfold holds?
  rw [product?_of_isWord hacross, product?_of_isWord hdown, product?_of_isWord hradii]
  simp only [prod_eq_sq, Option.bind_eq_bind, Option.bind_some, wide?_of_isWord hsum]
  rfl

end Oval

/-- Number of pixels. -/
def area (r : Rect) : Int := (r.x2 - r.x1 + 1) * (r.y2 - r.y1 + 1)

section Box

variable {r : Rect} {quadrant x y : Int}

theorem oval_of_whole (h : quadrant < 1 ∨ 4 < quadrant) :
    r.oval quadrant = ⟨r.x1 + r.x2 + 1, r.y1 + r.y2 + 1, r.width, r.height⟩ := by
  unfold oval
  rw [if_neg (by omega), if_neg (by omega), if_neg (by omega), if_neg (by omega)]

theorem oval_of_quadrant (hfirst : 1 ≤ quadrant) (hlast : quadrant ≤ 4) :
    ∃ cx cy, r.oval quadrant = ⟨cx, cy, 2 * r.width, 2 * r.height⟩
      ∧ (cx = 2 * r.x1 ∨ cx = 2 * r.x2 + 1) ∧ (cy = 2 * r.y1 ∨ cy = 2 * r.y2 + 1) := by
  obtain rfl | rfl | rfl | rfl : quadrant = 1 ∨ quadrant = 2 ∨ quadrant = 3 ∨ quadrant = 4 := by
    omega
  · exact ⟨_, _, rfl, .inl rfl, .inr rfl⟩
  · exact ⟨_, _, rfl, .inr rfl, .inr rfl⟩
  · exact ⟨_, _, rfl, .inr rfl, .inl rfl⟩
  · exact ⟨_, _, rfl, .inl rfl, .inl rfl⟩

/-- No length in the test for a whole ellipse is longer than a side of its box. -/
theorem measured_of_whole (hwords : r.InWords) (hinside : r.contains x y = true)
    (h : quadrant < 1 ∨ 4 < quadrant) : (r.oval quadrant).Measured x y := by
  have hwidth := width_eq (isEmpty_of_contains hinside)
  have hheight := height_eq (isEmpty_of_contains hinside)
  obtain ⟨⟨hx1, hx1'⟩, ⟨hy1, hy1'⟩, ⟨hx2, hx2'⟩, ⟨hy2, hy2'⟩⟩ := hwords
  rw [contains_iff] at hinside
  have hacross : |2 * x + 1 - (r.x1 + r.x2 + 1)| ≤ 2 ^ 32 - 1 := abs_le.mpr (by omega)
  have hdown : |2 * y + 1 - (r.y1 + r.y2 + 1)| ≤ 2 ^ 32 - 1 := abs_le.mpr (by omega)
  have hrx : 1 ≤ r.width ∧ r.width ≤ 2 ^ 31 - 1 := by omega
  have hry : 1 ≤ r.height ∧ r.height ≤ 2 ^ 31 - 1 := by omega
  have hcx : IsWord 64 (r.x1 + r.x2 + 1) := ⟨by omega, by omega⟩
  have hcy : IsWord 64 (r.y1 + r.y2 + 1) := ⟨by omega, by omega⟩
  rw [oval_of_whole h]
  exact Oval.measured_of_le hcx hcy hrx hry hacross hdown (by norm_num) (by norm_num) (by norm_num)

/-- In the test for a quadrant every length may be twice a side of its box. -/
theorem measured_of_quadrant (hwords : r.InWords) (hinside : r.contains x y = true)
    (hfirst : 1 ≤ quadrant) (hlast : quadrant ≤ 4) (hsize : r.area ≤ 2 ^ 61) :
    (r.oval quadrant).Measured x y := by
  have hwidth := width_eq (isEmpty_of_contains hinside)
  have hheight := height_eq (isEmpty_of_contains hinside)
  obtain ⟨cx, cy, hoval, hx, hy⟩ := oval_of_quadrant (r := r) hfirst hlast
  obtain ⟨⟨hx1, hx1'⟩, ⟨hy1, hy1'⟩, ⟨hx2, hx2'⟩, ⟨hy2, hy2'⟩⟩ := hwords
  rw [contains_iff] at hinside
  unfold area at hsize
  generalize hcolumns : r.x2 - r.x1 + 1 = columns at hsize hwidth
  generalize hrows : r.y2 - r.y1 + 1 = rows at hsize hheight
  have hacross : |2 * x + 1 - cx| ≤ 2 * columns - 1 := abs_le.mpr (by omega)
  have hdown : |2 * y + 1 - cy| ≤ 2 * rows - 1 := abs_le.mpr (by omega)
  have hrx : 1 ≤ 2 * r.width ∧ 2 * r.width ≤ 2 * columns := by omega
  have hry : 1 ≤ 2 * r.height ∧ 2 * r.height ≤ 2 * rows := by omega
  have hcx : IsWord 64 cx := ⟨by omega, by omega⟩
  have hcy : IsWord 64 cy := ⟨by omega, by omega⟩
  rw [hoval]
  exact Oval.measured_of_le hcx hcy hrx hry hacross hdown (by linarith) (by linarith) (by linarith)

/-- The lengths of the test, in a box that is not too large for its radii. -/
theorem oval_measured (hwords : r.InWords) (hinside : r.contains x y = true)
    (hsize : 1 ≤ quadrant → quadrant ≤ 4 → r.area ≤ 2 ^ 61) : (r.oval quadrant).Measured x y := by
  by_cases hquadrant : 1 ≤ quadrant ∧ quadrant ≤ 4
  · exact measured_of_quadrant hwords hinside hquadrant.1 hquadrant.2
      (hsize hquadrant.1 hquadrant.2)
  · exact measured_of_whole hwords hinside (by omega)

/-- With words long enough the test is that for the inside of the oval. -/
theorem elliptic_eq (hwords : r.InWords) (hsize : 1 ≤ quadrant → quadrant ≤ 4 → r.area ≤ 2 ^ 61)
    (x y : Int) : r.elliptic quadrant x y
      = some (r.contains x y && decide ((r.oval quadrant).Holds x y)) := by
  unfold elliptic
  cases hinside : r.contains x y with
  | false => rfl
  | true =>
    exact Oval.holds?_of_isWord (oval_measured hwords hinside hsize).isWord_results

theorem mem_drawnEllipse_filled {bounds : Rect} {p : Point} (hwords : r.InWords)
    (hsize : 1 ≤ quadrant → quadrant ≤ 4 → r.area ≤ 2 ^ 61) :
    p ∈ r.drawnEllipse true quadrant bounds ↔ r.contains p.x p.y = true
      ∧ bounds.contains p.x p.y = true ∧ (r.oval quadrant).Holds p.x p.y := by
  unfold drawnEllipse
  split
  case isTrue hempty =>
    have hnone : r.contains p.x p.y ≠ true := fun h => by
      rw [isEmpty_of_contains h] at hempty
      cases hempty
    exact iff_of_false List.not_mem_nil fun h => hnone h.1
  case isFalse =>
    rw [Region.mem_points_filled (elliptic_eq hwords hsize), Bool.and_eq_true, decide_eq_true_eq]
    tauto

end Box

end Rect

end PanelSkin
