import Mathlib.Algebra.Group.Int.Defs
import Mathlib.Data.List.Nodup
import PanelSkin.Graphics.Rect

/-!
Rectangles by their corners: which integers are in a range, whether there is a pixel in a rectangle,
which these are, and how many columns and rows they make.
-/

namespace PanelSkin

theorem mem_span {a b n : Int} : n ∈ span a b ↔ a ≤ n ∧ n ≤ b := by
  unfold span
  rw [List.mem_map]
  constructor
  · rintro ⟨k, hk, rfl⟩
    rw [List.mem_range] at hk
    omega
  · rintro ⟨ha, hb⟩
    refine ⟨(n - a).toNat, ?_, by omega⟩
    rw [List.mem_range]
    omega

theorem nodup_span (a b : Int) : (span a b).Nodup := by
  refine List.Nodup.map (fun j k hsame => ?_) List.nodup_range
  omega

theorem span_of_lt {a b : Int} (h : b < a) : span a b = [] := by
  rw [List.eq_nil_iff_forall_not_mem]
  intro n hn
  rw [mem_span] at hn
  omega

theorem span_self (a : Int) : span a a = [a] := by
  unfold span
  rw [Int.sub_self]
  simp

theorem span_of_le {a b : Int} (h : a ≤ b) :
    span a b = (List.range ((b - a).toNat + 1)).map fun (k : Nat) => a + k := by
  have hlength : (b - a + 1).toNat = (b - a).toNat + 1 := by omega
  rw [span, hlength]

/-- A range in two parts. -/
theorem span_append {a b n : Int} (ha : a ≤ n) (hb : n ≤ b + 1) :
    span a b = span a (n - 1) ++ span n b := by
  have hlength : (b - a + 1).toNat = (n - 1 - a + 1).toNat + (b - n + 1).toNat := by omega
  unfold span
  rw [hlength, List.range_add, List.map_append, List.map_map]
  refine congrArg _ (List.map_congr_left fun k _ => ?_)
  dsimp only [Function.comp_apply]
  omega

/-- What a range has from some number on. -/
theorem filter_span (a b n : Int) : (span a b).filter (n ≤ ·) = span (max a n) b := by
  by_cases hall : n ≤ a
  · rw [Int.max_eq_left hall, List.filter_eq_self]
    intro m hm
    rw [mem_span] at hm
    exact decide_eq_true (by omega)
  rw [Int.max_eq_right (by omega)]
  by_cases hsome : n ≤ b
  · have hbefore : (span a (n - 1)).filter (n ≤ ·) = [] := by
      rw [List.filter_eq_nil_iff]
      intro m hm
      rw [mem_span] at hm
      rw [decide_eq_true_eq]
      omega
    have hbehind : (span n b).filter (n ≤ ·) = span n b := by
      rw [List.filter_eq_self]
      intro m hm
      exact decide_eq_true (mem_span.mp hm).1
    rw [span_append (n := n) (by omega) (by omega), List.filter_append, hbefore, hbehind,
      List.nil_append]
  · rw [span_of_lt (a := n) (by omega), List.filter_eq_nil_iff]
    intro m hm
    rw [mem_span] at hm
    rw [decide_eq_true_eq]
    omega

namespace Rect

variable {r : Rect}

theorem mem_points {p : Point} :
    p ∈ r.points ↔ (r.x1 ≤ p.x ∧ p.x ≤ r.x2) ∧ r.y1 ≤ p.y ∧ p.y ≤ r.y2 := by
  unfold points
  simp only [List.mem_flatMap, List.mem_map, mem_span]
  constructor
  · rintro ⟨y, hy, x, hx, rfl⟩
    exact ⟨hx, hy⟩
  · rintro ⟨hx, hy⟩
    exact ⟨p.y, hy, p.x, hx, rfl⟩

theorem points_row (x1 x2 y : Int) :
    (⟨x1, y, x2, y⟩ : Rect).points = (span x1 x2).map fun x => ⟨x, y⟩ := by
  unfold points
  rw [span_self, List.flatMap_singleton]

theorem points_column (x y1 y2 : Int) :
    (⟨x, y1, x, y2⟩ : Rect).points = (span y1 y2).map fun y => ⟨x, y⟩ := by
  unfold points
  rw [span_self, List.map_eq_flatMap]
  rfl

theorem nodup_points (r : Rect) : r.points.Nodup := by
  refine List.nodup_flatMap.mpr ⟨fun y _ => ?_, ?_⟩
  · exact (nodup_span _ _).map fun x x' hsame => congrArg Point.x hsame
  · -- pixels of different rows are different
    refine (nodup_span _ _).imp fun hrows p hp hp' => hrows ?_
    obtain ⟨x, -, rfl⟩ := List.mem_map.mp hp
    obtain ⟨x', -, hsame⟩ := List.mem_map.mp hp'
    exact (congrArg Point.y hsame).symm

theorem isEmpty_eq_false_iff : r.isEmpty = false ↔ r.x1 ≤ r.x2 ∧ r.y1 ≤ r.y2 := by
  simp [isEmpty]

theorem contains_iff {x y : Int} :
    r.contains x y = true ↔ (r.x1 ≤ x ∧ x ≤ r.x2) ∧ r.y1 ≤ y ∧ y ≤ r.y2 := by
  simp [contains, and_assoc]

theorem isEmpty_of_contains {x y : Int} (h : r.contains x y = true) : r.isEmpty = false := by
  rw [contains_iff] at h
  rw [isEmpty_eq_false_iff]
  omega

/-- The sides of a rectangle do not leave another one. -/
structure Within (r s : Rect) : Prop where
  x1 : s.x1 ≤ r.x1
  y1 : s.y1 ≤ r.y1
  x2 : r.x2 ≤ s.x2
  y2 : r.y2 ≤ s.y2

theorem Within.contains {s : Rect} {x y : Int} (hwithin : r.Within s)
    (h : r.contains x y = true) : s.contains x y = true := by
  obtain ⟨hx1, hy1, hx2, hy2⟩ := hwithin
  rw [contains_iff] at h ⊢
  omega

/-- Each pixel of a rectangle is there once. -/
theorem count_points (r : Rect) (p : Point) :
    r.points.count p = if r.contains p.x p.y = true then 1 else 0 := by
  rw [r.nodup_points.count]
  exact if_congr (mem_points.trans contains_iff.symm) rfl rfl

theorem contains_intersect (r s : Rect) (x y : Int) :
    (r.intersect s).contains x y = (r.contains x y && s.contains x y) := by
  rw [Bool.eq_iff_iff, Bool.and_eq_true, contains_iff, contains_iff, contains_iff]
  dsimp only [intersect]
  omega

theorem mem_points_intersect {s : Rect} {p : Point} :
    p ∈ (r.intersect s).points ↔ r.contains p.x p.y = true ∧ s.contains p.x p.y = true := by
  rw [mem_points, ← contains_iff, contains_intersect, Bool.and_eq_true]

theorem width_eq (hsome : r.isEmpty = false) : r.width = min (r.x2 - r.x1 + 1) (2 ^ 31 - 1) := by
  rw [isEmpty_eq_false_iff] at hsome
  unfold width saturate
  omega

theorem height_eq (hsome : r.isEmpty = false) : r.height = min (r.y2 - r.y1 + 1) (2 ^ 31 - 1) := by
  rw [isEmpty_eq_false_iff] at hsome
  unfold height saturate
  omega

theorem width_pos (hsome : r.isEmpty = false) : 0 < r.width := by
  have hwidth := width_eq hsome
  rw [isEmpty_eq_false_iff] at hsome
  omega

theorem height_pos (hsome : r.isEmpty = false) : 0 < r.height := by
  have hheight := height_eq hsome
  rw [isEmpty_eq_false_iff] at hsome
  omega

/-- A side of an even number of pixels is shorter than the longest. -/
theorem width_of_even (hsome : r.isEmpty = false) (heven : 2 ∣ r.width) :
    r.width = r.x2 - r.x1 + 1 ∧ r.width < 2 ^ 31 := by
  have hwidth := width_eq hsome
  omega

theorem height_of_even (hsome : r.isEmpty = false) (heven : 2 ∣ r.height) :
    r.height = r.y2 - r.y1 + 1 ∧ r.height < 2 ^ 31 := by
  have hheight := height_eq hsome
  omega

theorem height_le (h : 0 < r.height) : r.height ≤ r.y2 - r.y1 + 1 := by
  unfold height saturate at *
  omega

end Rect

end PanelSkin
