import PanelSkin.Proofs.Graphics.Ellipse

/-!
The pixels of the quadrants of an ellipse. A pixel counts as far from the axes of the ellipse as its
centre is if it is to the right and to the bottom of them; on the left its side counts that is
nearer to the upright axis, and on top the one nearer to the level axis. So a quadrant shows the
mirror image of the one beside it and, on the left and on top, up to one pixel more in each row or
column; and the four in the quarters of a box show the ellipse of the box with such a rim.
-/

namespace PanelSkin

/-- Whether a place so many half pixels across and down from the centre of an ellipse lies in it; a
quarter of the ellipse has `w` columns and `h` rows. -/
def InQuarter (w h across down : Int) : Prop :=
  (across * h) ^ 2 + (down * w) ^ 2 ≤ (2 * w * h) ^ 2

theorem InQuarter.nearer {w h a b across down : Int} (hin : InQuarter w h across down) (hw : 0 ≤ w)
    (hh : 0 ≤ h) (ha : 0 ≤ a) (hb : 0 ≤ b) (hacross : a ≤ across) (hdown : b ≤ down) :
    InQuarter w h a b := by
  have hfirst : (a * h) ^ 2 ≤ (across * h) ^ 2 :=
    pow_le_pow_left₀ (mul_nonneg ha hh) (mul_le_mul_of_nonneg_right hacross hh) 2
  have hsecond : (b * w) ^ 2 ≤ (down * w) ^ 2 :=
    pow_le_pow_left₀ (mul_nonneg hb hw) (mul_le_mul_of_nonneg_right hdown hw) 2
  exact (add_le_add hfirst hsecond).trans hin

/-- An ellipse with radii twice as long as the sides of its quarter. -/
theorem Rect.Oval.holds_iff_inQuarter {o : Rect.Oval} {w h x y across down : Int}
    (hrx : o.rx = 2 * w) (hry : o.ry = 2 * h) (hacross : o.across x ^ 2 = across ^ 2)
    (hdown : o.down y ^ 2 = down ^ 2) : o.Holds x y ↔ InQuarter w h across down := by
  unfold Rect.Oval.Holds InQuarter
  simp only [hrx, hry, mul_pow, hacross, hdown]
  constructor <;> intro hin <;> linarith

/-- The quadrants of an ellipse. -/
inductive Quadrant
  | topRight
  | topLeft
  | bottomLeft
  | bottomRight

namespace Quadrant

/-- The number that is given to have a quadrant drawn. -/
def number : Quadrant → Int
  | topRight => 1
  | topLeft => 2
  | bottomLeft => 3
  | bottomRight => 4

def isRight : Quadrant → Bool
  | topRight | bottomRight => true
  | topLeft | bottomLeft => false

def isBottom : Quadrant → Bool
  | bottomLeft | bottomRight => true
  | topRight | topLeft => false

/-- How far a pixel between `low` and `high` counts as from the axis, in half pixels. The axis is
before the first of them if they are `behind` it, and else after the last. -/
def reach (behind : Bool) (low high v : Int) : Int :=
  if behind then 2 * (v - low) + 1 else 2 * (high - v)

/-- The first and the last of the half of `size` pixels that is before or behind the middle. -/
def half (behind : Bool) (low high size : Int) : Int × Int :=
  if behind then (low + size / 2, high) else (low, low + size / 2 - 1)

/-- The next pixel towards the axis, where the pixel itself counts as too near. -/
def nearer (behind : Bool) (v : Int) : Int := if behind then v else v + 1

section Reach

variable {behind : Bool} {low high size v : Int}

theorem reach_nonneg (hv : low ≤ v ∧ v ≤ high) : 0 ≤ reach behind low high v := by
  unfold reach
  split <;> omega

theorem reach_image_le : reach false low high (low + high - v) ≤ reach true low high v := by
  simp only [reach, Bool.false_eq_true, if_true, if_false]
  omega

theorem reach_image_of_next_le :
    reach true low high (low + high - (v + 1)) ≤ reach false low high v := by
  simp only [reach, Bool.false_eq_true, if_true, if_false]
  omega

theorem half_spec (hsize : size = high - low + 1) (heven : 2 ∣ size) (hpos : 0 < size) :
    low ≤ (half behind low high size).1 ∧ (half behind low high size).2 ≤ high
      ∧ 2 * ((half behind low high size).2 - (half behind low high size).1 + 1) = size := by
  unfold half
  split <;> dsimp only <;> omega

/-- In the whole a pixel before the axis is half a pixel further from it. -/
theorem abs_whole_eq (hsize : size = high - low + 1) (heven : 2 ∣ size)
    (hv : (half behind low high size).1 ≤ v ∧ v ≤ (half behind low high size).2) :
    |2 * v + 1 - (low + high + 1)|
      = reach behind (half behind low high size).1 (half behind low high size).2 v
        + if behind then 0 else 1 := by
  cases behind with
  | true =>
    simp only [half, reach, if_true] at hv ⊢
    rw [abs_of_nonneg (by omega)]
    omega
  | false =>
    simp only [half, reach, Bool.false_eq_true, if_false] at hv ⊢
    rw [abs_of_neg (by omega)]
    omega

theorem reach_nearer_le :
    reach behind low high (nearer behind v) + (if behind then 0 else 1)
      ≤ reach behind low high v := by
  unfold reach nearer
  split <;> omega

end Reach

/-- How far a pixel of the box counts as from the upright axis, in half pixels. -/
def across (q : Quadrant) (r : Rect) (x : Int) : Int := reach q.isRight r.x1 r.x2 x

/-- How far a pixel of the box counts as from the level axis, in half pixels. -/
def down (q : Quadrant) (r : Rect) (y : Int) : Int := reach q.isBottom r.y1 r.y2 y

/-- The pixels that are shown of a quadrant in a box. -/
def shown (q : Quadrant) (r bounds : Rect) : List Point := r.drawnEllipse true q.number bounds

section Shown

variable {q q' : Quadrant} {r bounds : Rect} {p p' : Point}

theorem holds_iff (q : Quadrant) (r : Rect) (x y : Int) :
    (r.oval q.number).Holds x y ↔ InQuarter r.width r.height (q.across r x) (q.down r y) := by
  have hradii : (r.oval q.number).rx = 2 * r.width ∧ (r.oval q.number).ry = 2 * r.height := by
    cases q <;> exact ⟨rfl, rfl⟩
  refine Rect.Oval.holds_iff_inQuarter hradii.1 hradii.2 ?_ ?_
  · cases q <;> simp [Rect.oval, Rect.Oval.across, number, across, reach, isRight] <;> ring
  · cases q <;> simp [Rect.oval, Rect.Oval.down, number, down, reach, isBottom] <;> ring

theorem mem_shown_iff (hwords : r.InWords) (hsize : r.area ≤ 2 ^ 61) :
    p ∈ q.shown r bounds ↔ r.contains p.x p.y = true ∧ bounds.contains p.x p.y = true
      ∧ InQuarter r.width r.height (q.across r p.x) (q.down r p.y) := by
  unfold shown
  rw [Rect.mem_drawnEllipse_filled hwords fun _ _ => hsize, holds_iff]

/-- A pixel that is not further from the axes than one that is shown is shown too. -/
theorem mem_shown_of_nearer (hwords : r.InWords) (hwithin : r.Within bounds)
    (hsize : r.area ≤ 2 ^ 61) (hp : p ∈ q.shown r bounds) (hinside : r.contains p'.x p'.y = true)
    (hacross : q'.across r p'.x ≤ q.across r p.x) (hdown : q'.down r p'.y ≤ q.down r p.y) :
    p' ∈ q'.shown r bounds := by
  have hsome := Rect.isEmpty_of_contains hinside
  obtain ⟨hx, hy⟩ := Rect.contains_iff.mp hinside
  rw [mem_shown_iff hwords hsize] at hp ⊢
  exact ⟨hinside, hwithin.contains hinside, hp.2.2.nearer (Rect.width_pos hsome).le
    (Rect.height_pos hsome).le (reach_nonneg hx) (reach_nonneg hy) hacross hdown⟩

end Shown

end Quadrant

/-- The mirror images across a box of the pixels of `inner` are in `outer`, which may have one more
pixel in each row: the neighbour of a pixel of `outer` towards the right is such an image. -/
structure Rect.MirroredAcross (r : Rect) (inner outer : List Point) : Prop where
  image : ∀ p ∈ inner, ⟨r.x1 + r.x2 - p.x, p.y⟩ ∈ outer
  rim : ∀ p ∈ outer, p.x < r.x2 → ⟨r.x1 + r.x2 - (p.x + 1), p.y⟩ ∈ inner

/-- The same from top to bottom: the neighbour below a pixel of `outer` is an image. -/
structure Rect.MirroredDown (r : Rect) (inner outer : List Point) : Prop where
  image : ∀ p ∈ inner, ⟨p.x, r.y1 + r.y2 - p.y⟩ ∈ outer
  rim : ∀ p ∈ outer, p.y < r.y2 → ⟨p.x, r.y1 + r.y2 - (p.y + 1)⟩ ∈ inner

namespace Quadrant

section Mirror

variable {q q' : Quadrant} {r bounds : Rect}

theorem mirroredAcross (hwords : r.InWords) (hwithin : r.Within bounds) (hsize : r.area ≤ 2 ^ 61)
    (hright : q.isRight = true) (hleft : q'.isRight = false) (hlevel : q.isBottom = q'.isBottom) :
    r.MirroredAcross (q.shown r bounds) (q'.shown r bounds) := by
  have hdown (y : Int) : q.down r y = q'.down r y := by rw [down, down, hlevel]
  constructor
  case image =>
    intro p hp
    obtain ⟨hx, hy⟩ := Rect.contains_iff.mp ((mem_shown_iff hwords hsize).mp hp).1
    refine mem_shown_of_nearer hwords hwithin hsize hp ?_ ?_ (hdown p.y).ge
    · exact Rect.contains_iff.mpr ⟨⟨by dsimp only; omega, by dsimp only; omega⟩, hy⟩
    · rw [across, across, hright, hleft]
      exact reach_image_le
  case rim =>
    intro p hp hnext
    obtain ⟨hx, hy⟩ := Rect.contains_iff.mp ((mem_shown_iff hwords hsize).mp hp).1
    refine mem_shown_of_nearer hwords hwithin hsize hp ?_ ?_ (hdown p.y).le
    · exact Rect.contains_iff.mpr ⟨⟨by dsimp only; omega, by dsimp only; omega⟩, hy⟩
    · rw [across, across, hright, hleft]
      exact reach_image_of_next_le

theorem mirroredDown (hwords : r.InWords) (hwithin : r.Within bounds) (hsize : r.area ≤ 2 ^ 61)
    (hbottom : q.isBottom = true) (htop : q'.isBottom = false) (hside : q.isRight = q'.isRight) :
    r.MirroredDown (q.shown r bounds) (q'.shown r bounds) := by
  have hacross (x : Int) : q.across r x = q'.across r x := by rw [across, across, hside]
  constructor
  case image =>
    intro p hp
    obtain ⟨hx, hy⟩ := Rect.contains_iff.mp ((mem_shown_iff hwords hsize).mp hp).1
    refine mem_shown_of_nearer hwords hwithin hsize hp ?_ (hacross p.x).ge ?_
    · exact Rect.contains_iff.mpr ⟨hx, by dsimp only; omega, by dsimp only; omega⟩
    · rw [down, down, hbottom, htop]
      exact reach_image_le
  case rim =>
    intro p hp hnext
    obtain ⟨hx, hy⟩ := Rect.contains_iff.mp ((mem_shown_iff hwords hsize).mp hp).1
    refine mem_shown_of_nearer hwords hwithin hsize hp ?_ (hacross p.x).le ?_
    · exact Rect.contains_iff.mpr ⟨hx, by dsimp only; omega, by dsimp only; omega⟩
    · rw [down, down, hbottom, htop]
      exact reach_image_of_next_le

end Mirror

/-- The quarter of a box in which a quadrant lies. -/
def box (q : Quadrant) (r : Rect) : Rect where
  x1 := (half q.isRight r.x1 r.x2 r.width).1
  y1 := (half q.isBottom r.y1 r.y2 r.height).1
  x2 := (half q.isRight r.x1 r.x2 r.width).2
  y2 := (half q.isBottom r.y1 r.y2 r.height).2

/-- The next pixel towards the axes from which a pixel of the quadrant counts as too near. -/
def inward (q : Quadrant) (p : Point) : Point := ⟨nearer q.isRight p.x, nearer q.isBottom p.y⟩

section Whole

variable {q : Quadrant} {r bounds : Rect} {p : Point}

/-- What a quarter of a box of words has in common with the box. -/
structure Quarters (r box : Rect) : Prop where
  inWords : box.InWords
  within : box.Within r
  width : r.width = 2 * box.width
  height : r.height = 2 * box.height
  area : box.area ≤ 2 ^ 61

theorem quarters_box (q : Quadrant) (hwords : r.InWords) (hsome : r.isEmpty = false)
    (hcolumns : 2 ∣ r.width) (hrows : 2 ∣ r.height) : Quarters r (q.box r) := by
  obtain ⟨hwidth, hwidth'⟩ := Rect.width_of_even hsome hcolumns
  obtain ⟨hheight, hheight'⟩ := Rect.height_of_even hsome hrows
  obtain ⟨hx1, hx2, hx⟩ : r.x1 ≤ (q.box r).x1 ∧ (q.box r).x2 ≤ r.x2
      ∧ 2 * ((q.box r).x2 - (q.box r).x1 + 1) = r.width :=
    half_spec hwidth hcolumns (Rect.width_pos hsome)
  obtain ⟨hy1, hy2, hy⟩ : r.y1 ≤ (q.box r).y1 ∧ (q.box r).y2 ≤ r.y2
      ∧ 2 * ((q.box r).y2 - (q.box r).y1 + 1) = r.height :=
    half_spec hheight hrows (Rect.height_pos hsome)
  have hwidth_pos := Rect.width_pos hsome
  have hheight_pos := Rect.height_pos hsome
  have hbox : (q.box r).isEmpty = false := Rect.isEmpty_eq_false_iff.mpr (by omega)
  have hboxWidth := Rect.width_eq hbox
  have hboxHeight := Rect.height_eq hbox
  obtain ⟨⟨hlow, hlow'⟩, ⟨htop, htop'⟩, ⟨hhigh, hhigh'⟩, ⟨hbottom, hbottom'⟩⟩ := hwords
  constructor
  case inWords =>
    exact ⟨⟨by omega, by omega⟩, ⟨by omega, by omega⟩, ⟨by omega, by omega⟩, ⟨by omega, by omega⟩⟩
  case within => exact ⟨hx1, hy1, hx2, hy2⟩
  case width => omega
  case height => omega
  case area =>
    have hproduct : (q.box r).area ≤ 2 ^ 30 * 2 ^ 30 :=
      mul_le_mul (by omega) (by omega) (by omega) (by omega)
    exact hproduct.trans (by norm_num)

theorem mem_whole_iff (q : Quadrant) (hwords : r.InWords) (hsome : r.isEmpty = false)
    (hcolumns : 2 ∣ r.width) (hrows : 2 ∣ r.height) :
    p ∈ r.drawnEllipse true 0 bounds ↔ r.contains p.x p.y = true ∧ bounds.contains p.x p.y = true
      ∧ InQuarter (q.box r).width (q.box r).height |2 * p.x + 1 - (r.x1 + r.x2 + 1)|
        |2 * p.y + 1 - (r.y1 + r.y2 + 1)| := by
  have hquarters := quarters_box q hwords hsome hcolumns hrows
  rw [Rect.mem_drawnEllipse_filled hwords (by omega),
    Rect.Oval.holds_iff_inQuarter hquarters.width hquarters.height (sq_abs _).symm (sq_abs _).symm]
  rfl

/-- What the ellipse shows in a quarter of its box is shown by the quadrant in that quarter. -/
theorem mem_shown_of_mem_whole (hwords : r.InWords) (hsome : r.isEmpty = false)
    (hcolumns : 2 ∣ r.width) (hrows : 2 ∣ r.height) (hp : p ∈ r.drawnEllipse true 0 bounds)
    (hinside : (q.box r).contains p.x p.y = true) : p ∈ q.shown (q.box r) bounds := by
  have hquarters := quarters_box q hwords hsome hcolumns hrows
  have hbox := Rect.isEmpty_of_contains hinside
  obtain ⟨hx, hy⟩ := Rect.contains_iff.mp hinside
  obtain ⟨-, hshown, hin⟩ := (mem_whole_iff q hwords hsome hcolumns hrows).mp hp
  rw [abs_whole_eq (Rect.width_of_even hsome hcolumns).1 hcolumns hx,
    abs_whole_eq (Rect.height_of_even hsome hrows).1 hrows hy] at hin
  refine (mem_shown_iff hquarters.inWords hquarters.area).mpr ⟨hinside, hshown,
    hin.nearer (Rect.width_pos hbox).le (Rect.height_pos hbox).le (reach_nonneg hx)
      (reach_nonneg hy) ?_ ?_⟩
  · exact le_add_of_nonneg_right (by split <;> decide)
  · exact le_add_of_nonneg_right (by split <;> decide)

/-- What a quadrant shows in a quarter of a box is shown by the ellipse, up to a rim on the left and
on top. -/
theorem inward_mem_whole (hwords : r.InWords) (hwithin : r.Within bounds)
    (hsome : r.isEmpty = false) (hcolumns : 2 ∣ r.width) (hrows : 2 ∣ r.height)
    (hp : p ∈ q.shown (q.box r) bounds)
    (hinside : (q.box r).contains (q.inward p).x (q.inward p).y = true) :
    q.inward p ∈ r.drawnEllipse true 0 bounds := by
  have hquarters := quarters_box q hwords hsome hcolumns hrows
  have hbox := Rect.isEmpty_of_contains hinside
  have hwhole := hquarters.within.contains hinside
  obtain ⟨hx, hy⟩ := Rect.contains_iff.mp hinside
  obtain ⟨-, -, hin⟩ := (mem_shown_iff hquarters.inWords hquarters.area).mp hp
  refine (mem_whole_iff q hwords hsome hcolumns hrows).mpr ⟨hwhole, hwithin.contains hwhole,
    hin.nearer (Rect.width_pos hbox).le (Rect.height_pos hbox).le (abs_nonneg _) (abs_nonneg _)
      ?_ ?_⟩
  · rw [abs_whole_eq (Rect.width_of_even hsome hcolumns).1 hcolumns hx]
    exact reach_nearer_le
  · rw [abs_whole_eq (Rect.height_of_even hsome hrows).1 hrows hy]
    exact reach_nearer_le

/-- Every pixel of a box is in one of its quarters. -/
theorem exists_box_contains {x y : Int} (hinside : r.contains x y = true) :
    ∃ q : Quadrant, (q.box r).contains x y = true := by
  obtain ⟨hx, hy⟩ := Rect.contains_iff.mp hinside
  by_cases hright : r.x1 + r.width / 2 ≤ x <;> by_cases hbottom : r.y1 + r.height / 2 ≤ y
  · exact ⟨bottomRight, Rect.contains_iff.mpr ⟨⟨hright, hx.2⟩, hbottom, hy.2⟩⟩
  · have htop := Int.le_sub_one_of_lt (not_le.mp hbottom)
    exact ⟨topRight, Rect.contains_iff.mpr ⟨⟨hright, hx.2⟩, hy.1, htop⟩⟩
  · have hleft := Int.le_sub_one_of_lt (not_le.mp hright)
    exact ⟨bottomLeft, Rect.contains_iff.mpr ⟨⟨hx.1, hleft⟩, hbottom, hy.2⟩⟩
  · have hleft := Int.le_sub_one_of_lt (not_le.mp hright)
    have htop := Int.le_sub_one_of_lt (not_le.mp hbottom)
    exact ⟨topLeft, Rect.contains_iff.mpr ⟨⟨hx.1, hleft⟩, hy.1, htop⟩⟩

end Whole

/-- The quadrants in a box are mirror images of each other up to a rim of one pixel on the left and
on top: a quadrant on the left shows the mirror image of the one on its right and at most one pixel
more in each row, and one on top that of the one below it and at most one more in each column. In
the quarters of a box with sides of even length they show the ellipse of the box with this rim. -/
theorem shown_mirrors_up_to_rim (bounds : Rect) :
    (∀ r : Rect, r.InWords → r.isEmpty = false → r.Within bounds → r.area ≤ 2 ^ 61 →
      (∀ (q : Quadrant) (p : Point), p ∈ q.shown r bounds ↔ r.contains p.x p.y = true
        ∧ InQuarter r.width r.height (q.across r p.x) (q.down r p.y))
      ∧ r.MirroredAcross (topRight.shown r bounds) (topLeft.shown r bounds)
      ∧ r.MirroredDown (bottomLeft.shown r bounds) (topLeft.shown r bounds)
      ∧ r.MirroredAcross (bottomRight.shown r bounds) (bottomLeft.shown r bounds))
    ∧ ∀ r : Rect, r.InWords → r.isEmpty = false → r.Within bounds → 2 ∣ r.width → 2 ∣ r.height →
      (∀ p ∈ r.drawnEllipse true 0 bounds, ∃ q : Quadrant, p ∈ q.shown (q.box r) bounds)
      ∧ ∀ (q : Quadrant), ∀ p ∈ q.shown (q.box r) bounds,
        (q.box r).contains (q.inward p).x (q.inward p).y = true →
          q.inward p ∈ r.drawnEllipse true 0 bounds := by
  constructor
  case left =>
    intro r hwords hsome hwithin hsize
    refine ⟨fun q p => ?_, mirroredAcross hwords hwithin hsize rfl rfl rfl,
      mirroredDown hwords hwithin hsize rfl rfl rfl, mirroredAcross hwords hwithin hsize rfl rfl rfl⟩
    rw [mem_shown_iff hwords hsize]
    exact ⟨fun h => ⟨h.1, h.2.2⟩, fun h => ⟨h.1, hwithin.contains h.1, h.2⟩⟩
  case right =>
    intro r hwords hsome hwithin hcolumns hrows
    refine ⟨fun p hp => ?_, fun q p => inward_mem_whole hwords hwithin hsome hcolumns hrows⟩
    have hinside := (mem_whole_iff topLeft hwords hsome hcolumns hrows).mp hp |>.1
    obtain ⟨q, hbox⟩ := exists_box_contains hinside
    exact ⟨q, mem_shown_of_mem_whole hwords hsome hcolumns hrows hp hbox⟩

theorem shown_mirrors_up_to_rim_of_six :
    let bounds : Rect := ⟨0, 0, 5, 5⟩
    (⟨0, 0, 2, 2⟩ : Rect).MirroredAcross (topRight.shown ⟨0, 0, 2, 2⟩ bounds)
        (topLeft.shown ⟨0, 0, 2, 2⟩ bounds)
      ∧ ∃ q : Quadrant, ⟨4, 5⟩ ∈ q.shown (q.box bounds) bounds := by
  have h := shown_mirrors_up_to_rim ⟨0, 0, 5, 5⟩
  obtain ⟨-, hacross, -, -⟩ := h.1 ⟨0, 0, 2, 2⟩ ⟨by decide, by decide, by decide, by decide⟩
    (by decide) ⟨by decide, by decide, by decide, by decide⟩ (by decide)
  obtain ⟨hwhole, -⟩ := h.2 ⟨0, 0, 5, 5⟩ ⟨by decide, by decide, by decide, by decide⟩
    (by decide) ⟨by decide, by decide, by decide, by decide⟩ (by decide) (by decide)
  exact ⟨hacross, hwhole ⟨4, 5⟩ (by decide)⟩

/-- The quadrants on the left and on top do show such a rim. -/
theorem shown_exceeds_mirror_image :
    let bounds : Rect := ⟨0, 0, 5, 5⟩
    (⟨0, 0⟩ ∈ topLeft.shown ⟨0, 0, 2, 2⟩ bounds ∧ ⟨2, 0⟩ ∉ topRight.shown ⟨0, 0, 2, 2⟩ bounds
        ∧ ⟨0, 2⟩ ∉ bottomLeft.shown ⟨0, 0, 2, 2⟩ bounds)
      ∧ (⟨0, 1⟩ ∈ bottomLeft.shown ⟨0, 0, 1, 1⟩ bounds
        ∧ ⟨1, 1⟩ ∉ bottomRight.shown ⟨0, 0, 1, 1⟩ bounds)
      ∧ topLeft.box ⟨0, 0, 5, 5⟩ = ⟨0, 0, 2, 2⟩
      ∧ ⟨0, 0⟩ ∉ (⟨0, 0, 5, 5⟩ : Rect).drawnEllipse true 0 bounds := by
  decide

end Quadrant

end PanelSkin
