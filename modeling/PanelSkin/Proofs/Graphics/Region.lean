import PanelSkin.Graphics.Shape
import PanelSkin.Proofs.Graphics.Rect

/-!
What is shown of a region whose test comes to something at every pixel: the pixels in sight that
pass it, and of these, where only the edge is drawn, the ones that have a neighbour outside.
-/

namespace PanelSkin

section FilterM

variable {α : Type}

theorem filterAuxM_of_isSome {p : α → Option Bool} {l : List α} (h : ∀ a ∈ l, (p a).isSome)
    (acc : List α) :
    l.filterAuxM p acc = some ((l.filter (p · == some true)).reverse ++ acc) := by
  induction l generalizing acc with
  | nil => rfl
  | cons a l ih =>
    obtain ⟨ha, hl⟩ := List.forall_mem_cons.mp h
    obtain ⟨kept, hkept⟩ := Option.isSome_iff_exists.mp ha
    cases kept with
    | false => simpa [List.filterAuxM, hkept] using ih hl acc
    | true => simpa [List.filterAuxM, hkept] using ih hl (a :: acc)

/-- A filter whose test comes to something for all elements. -/
theorem filterM_of_isSome {p : α → Option Bool} {l : List α} (h : ∀ a ∈ l, (p a).isSome) :
    l.filterM p = some (l.filter (p · == some true)) := by
  simp [List.filterM, filterAuxM_of_isSome h]

theorem isSome_of_isSome_filterAuxM {p : α → Option Bool} {l acc : List α}
    (h : (l.filterAuxM p acc).isSome) : ∀ a ∈ l, (p a).isSome := by
  induction l generalizing acc with
  | nil => exact fun a ha => absurd ha List.not_mem_nil
  | cons a l ih =>
    cases hkept : p a with
    | none => simp [List.filterAuxM, hkept] at h
    | some kept =>
      simp only [List.filterAuxM, hkept, Option.bind_eq_bind, Option.bind_some] at h
      exact List.forall_mem_cons.mpr ⟨Option.isSome_iff_exists.mpr ⟨kept, hkept⟩, ih h⟩

/-- A filter comes to something only if the test does so for all elements. -/
theorem isSome_filterM_iff {p : α → Option Bool} {l : List α} :
    (l.filterM p).isSome ↔ ∀ a ∈ l, (p a).isSome := by
  constructor
  · intro h
    unfold List.filterM at h
    cases hkept : l.filterAuxM p [] with
    | none => simp [hkept] at h
    | some kept =>
      have hsome : (l.filterAuxM p []).isSome := Option.isSome_iff_exists.mpr ⟨kept, hkept⟩
      exact isSome_of_isSome_filterAuxM hsome
  · intro h
    rw [filterM_of_isSome h]
    rfl

end FilterM

/-- The four pixels beside, above and below a pixel. -/
def Point.neighbours (p : Point) : List Point :=
  [⟨p.x - 1, p.y⟩, ⟨p.x + 1, p.y⟩, ⟨p.x, p.y - 1⟩, ⟨p.x, p.y + 1⟩]

namespace Region

variable {inside : Region} {test : Int → Int → Bool}

/-- Whether one of a pixel's four neighbours fails the test. -/
def atEdge (test : Int → Int → Bool) (x y : Int) : Bool :=
  !test (x - 1) y || !test (x + 1) y || !test x (y - 1) || !test x (y + 1)

theorem atEdge_iff {p : Point} :
    atEdge test p.x p.y = true ↔ ∃ q ∈ p.neighbours, test q.x q.y = false := by
  simp [atEdge, Point.neighbours, or_assoc]

theorem isEdge_of_total (h : ∀ x y, inside x y = some (test x y)) (x y : Int) :
    inside.isEdge x y = some (atEdge test x y) := by
  unfold isEdge isOutside atEdge
  simp only [h, Option.map_some]
  cases test (x - 1) y <;> cases test (x + 1) y <;> cases test x (y - 1) <;> rfl

/-- Whether a pixel of a region is drawn. -/
def shows (inside : Region) (filled : Bool) (p : Point) : Option Bool :=
  inside p.x p.y <&&> (inside.isEdge p.x p.y).map (filled || ·)

theorem isSome_points?_iff {rect bounds : Rect} {filled : Bool} :
    (inside.points? rect filled bounds).isSome
      ↔ ∀ p ∈ (rect.intersect bounds).points, (inside.shows filled p).isSome :=
  isSome_filterM_iff

/-- What is drawn if every test comes to something. -/
theorem points_of_isSome {rect bounds : Rect} {filled : Bool}
    (h : (inside.points? rect filled bounds).isSome) :
    inside.points rect filled bounds
      = (rect.intersect bounds).points.filter (inside.shows filled · == some true) := by
  have hpoints : inside.points? rect filled bounds
      = some ((rect.intersect bounds).points.filter (inside.shows filled · == some true)) :=
    filterM_of_isSome (isSome_points?_iff.mp h)
  rw [points, hpoints, Option.getD_some]

theorem shows_of_total (h : ∀ x y, inside x y = some (test x y)) (filled : Bool) (p : Point) :
    inside.shows filled p = some (test p.x p.y && (filled || atEdge test p.x p.y)) := by
  unfold shows
  rw [isEdge_of_total h, h]
  cases test p.x p.y <;> rfl

theorem isSome_points?_of_total (h : ∀ x y, inside x y = some (test x y)) (rect : Rect)
    (filled : Bool) (bounds : Rect) : (inside.points? rect filled bounds).isSome :=
  isSome_points?_iff.mpr fun p _ => Option.isSome_of_eq_some (shows_of_total h filled p)

theorem points_of_total (h : ∀ x y, inside x y = some (test x y)) (rect : Rect) (filled : Bool)
    (bounds : Rect) :
    inside.points rect filled bounds = (rect.intersect bounds).points.filter fun p =>
      test p.x p.y && (filled || atEdge test p.x p.y) := by
  rw [points_of_isSome (isSome_points?_of_total h rect filled bounds)]
  refine List.filter_congr fun p _ => ?_
  rw [shows_of_total h]
  cases test p.x p.y && (filled || atEdge test p.x p.y) <;> rfl

theorem mem_points_filled (h : ∀ x y, inside x y = some (test x y)) {rect bounds : Rect}
    {p : Point} :
    p ∈ inside.points rect true bounds
      ↔ rect.contains p.x p.y = true ∧ bounds.contains p.x p.y = true ∧ test p.x p.y = true := by
  rw [points_of_total h, List.mem_filter, Rect.mem_points_intersect, Bool.true_or, Bool.and_true,
    and_assoc]

theorem mem_points_outline (h : ∀ x y, inside x y = some (test x y)) {rect bounds : Rect}
    {p : Point} :
    p ∈ inside.points rect false bounds
      ↔ (rect.contains p.x p.y = true ∧ bounds.contains p.x p.y = true ∧ test p.x p.y = true)
        ∧ ∃ q ∈ p.neighbours, test q.x q.y = false := by
  rw [points_of_total h, List.mem_filter, Rect.mem_points_intersect, Bool.false_or,
    Bool.and_eq_true, atEdge_iff]
  simp only [and_assoc]

/-- Nothing is drawn twice. -/
theorem nodup_points (inside : Region) (rect : Rect) (filled : Bool) (bounds : Rect) :
    (inside.points rect filled bounds).Nodup := by
  by_cases h : (inside.points? rect filled bounds).isSome
  · rw [points_of_isSome h]
    exact (rect.intersect bounds).nodup_points.filter _
  · rw [points, Option.not_isSome_iff_eq_none.mp h]
    exact List.nodup_nil

theorem count_points {rect bounds : Rect} {filled : Bool}
    (h : (inside.points? rect filled bounds).isSome) (p : Point) :
    (inside.points rect filled bounds).count p =
      if (rect.contains p.x p.y = true ∧ bounds.contains p.x p.y = true) ∧
        inside.shows filled p = some true then 1 else 0 := by
  rw [(nodup_points inside rect filled bounds).count]
  refine if_congr ?_ rfl rfl
  rw [points_of_isSome h, List.mem_filter, Rect.mem_points_intersect, beq_iff_eq]

end Region

end PanelSkin
