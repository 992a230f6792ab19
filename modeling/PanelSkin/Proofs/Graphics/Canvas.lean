import Mathlib.Logic.Function.Iterate
import PanelSkin.Graphics.Canvas
import PanelSkin.Proofs.Graphics.Rect

/-!
What drawing does to a pixel of a canvas. It is up to the dots that fall on it: one after the other
they mix with what is there, and the pixel stays as it is if there are none.
-/

namespace PanelSkin

namespace Canvas

variable {c : Canvas} {x y : Nat}

/-- Pixels of different places are stored in different places. -/
theorem index_ne {width i j : Nat} (hi : i < width) (hx : x < width) (hother : ¬ (i = x ∧ j = y)) :
    j * width + i ≠ y * width + x := by
  intro hsame
  obtain hlt | rfl | hlt := Nat.lt_trichotomy j y
  · have hrow := Nat.mul_le_mul_right width (Nat.succ_le_of_lt hlt)
    rw [Nat.succ_mul] at hrow
    omega
  · exact hother ⟨by omega, rfl⟩
  · have hrow := Nat.mul_le_mul_right width (Nat.succ_le_of_lt hlt)
    rw [Nat.succ_mul] at hrow
    omega

/-- The pixels of a canvas are stored below their number. -/
theorem index_lt {width height : Nat} (hx : x < width) (hy : y < height) :
    y * width + x < width * height :=
  calc y * width + x < (y + 1) * width := by
        rw [Nat.succ_mul]
        omega
    _ ≤ width * height := by
        rw [Nat.mul_comm]
        exact Nat.mul_le_mul_left width hy

theorem pixel?_setPixel_of_ne {i j : Nat} (hother : ¬ (i = x ∧ j = y)) (color : Color) :
    (c.setPixel i j color).pixel? x y = c.pixel? x y := by
  unfold setPixel
  split
  · rename_i hinside
    unfold pixel?
    dsimp only
    split
    · rename_i hshown
      have hindex := index_ne hinside.1 hshown.1 hother
      rw [Array.set!_eq_setIfInBounds, Array.getElem?_setIfInBounds_ne hindex]
    · rfl
  · rfl

theorem pixel?_plot_of_off {d : Dot} (hoff : ¬ (d.x = x ∧ d.y = y)) :
    (c.plot d).pixel? x y = c.pixel? x y := by
  unfold plot
  split
  · split
    · apply pixel?_setPixel_of_ne
      omega
    · rfl
  · rfl

theorem pixel?_setPixel_self {below : Color} (hshown : c.pixel? x y = some below) (color : Color) :
    (c.setPixel x y color).pixel? x y = some color := by
  obtain ⟨hinside, hstored⟩ := Option.ite_none_right_eq_some.mp hshown
  obtain ⟨hindex, -⟩ := Array.getElem?_eq_some_iff.mp hstored
  rw [setPixel, if_pos hinside, pixel?]
  dsimp only
  rw [if_pos hinside, Array.set!_eq_setIfInBounds, Array.getElem?_setIfInBounds_self_of_lt hindex]

theorem pixel?_plot_of_on {d : Dot} (hon : d.x = x ∧ d.y = y) :
    (c.plot d).pixel? x y = (c.pixel? x y).map d.color.onto := by
  obtain ⟨hx, hy⟩ := hon
  unfold plot
  rw [if_pos (by omega), hx, hy, Int.toNat_natCast, Int.toNat_natCast]
  cases hshown : c.pixel? x y with
  | none => exact hshown
  | some below => exact pixel?_setPixel_self hshown _

/-- The dots that fall on a pixel. -/
def dotsOn (dots : List Dot) (x y : Nat) : List Dot := dots.filter fun d => d.x = x ∧ d.y = y

/-- What dots make of a color. -/
def mixed (dots : List Dot) (below : Color) : Color :=
  dots.foldl (fun below d => d.color.onto below) below

/-- Of all the dots that are drawn, a pixel shows those that fall on it. -/
theorem pixel?_plotAll (c : Canvas) (dots : List Dot) (x y : Nat) :
    (c.plotAll dots).pixel? x y = (c.pixel? x y).map (mixed (dotsOn dots x y)) := by
  induction dots generalizing c with
  | nil => exact Option.map_id'.symm
  | cons first rest ih =>
      have hrest : (c.plotAll (first :: rest)).pixel? x y =
          ((c.plot first).pixel? x y).map (mixed (dotsOn rest x y)) := ih (c.plot first)
      by_cases hon : first.x = x ∧ first.y = y
      · have hdots : dotsOn (first :: rest) x y = first :: dotsOn rest x y :=
          List.filter_cons_of_pos (decide_eq_true hon)
        rw [hrest, pixel?_plot_of_on hon, Option.map_map, hdots]
        rfl
      · have hdots : dotsOn (first :: rest) x y = dotsOn rest x y :=
          List.filter_cons_of_neg (by simpa using hon)
        rw [hrest, pixel?_plot_of_off hon, hdots]

/-- Pixels in one color fall on a pixel as often as it is among them. -/
theorem dotsOn_map (points : List Point) (color : Color) (x y : Nat) :
    dotsOn (points.map fun p => ⟨p.x, p.y, color⟩) x y
      = List.replicate (points.count ⟨x, y⟩) ⟨x, y, color⟩ := by
  have htest : (fun d : Dot => decide (d.x = x ∧ d.y = y)) ∘ (fun p : Point => ⟨p.x, p.y, color⟩)
      = fun p : Point => p == ⟨x, y⟩ := by
    funext p
    rw [Bool.eq_iff_iff, beq_iff_eq]
    cases p
    simp
  unfold dotsOn
  rw [List.filter_map, htest, List.filter_beq, List.map_replicate]

theorem mixed_replicate (n : Nat) (d : Dot) (below : Color) :
    mixed (List.replicate n d) below = d.color.onto^[n] below := by
  induction n generalizing below with
  | zero => rfl
  | succ n ih => exact ih (d.color.onto below)

/-- What is drawn in one color is mixed into a pixel as often as the pixel is in it. -/
theorem pixel?_plotAll_map (c : Canvas) (points : List Point) (color : Color) (x y : Nat) :
    (c.plotAll (points.map fun p => ⟨p.x, p.y, color⟩)).pixel? x y
      = (c.pixel? x y).map color.onto^[points.count ⟨x, y⟩] := by
  rw [pixel?_plotAll, dotsOn_map]
  exact congrArg (Option.map · _) (funext (mixed_replicate _ _))

theorem size_plot (c : Canvas) (d : Dot) :
    (c.plot d).width = c.width ∧ (c.plot d).height = c.height := by
  unfold plot setPixel
  split
  · split
    · split <;> exact ⟨rfl, rfl⟩
    · exact ⟨rfl, rfl⟩
  · exact ⟨rfl, rfl⟩

theorem size_plotAll (c : Canvas) (dots : List Dot) :
    (c.plotAll dots).width = c.width ∧ (c.plotAll dots).height = c.height := by
  induction dots generalizing c with
  | nil => exact ⟨rfl, rfl⟩
  | cons first rest ih =>
      obtain ⟨hwidth, hheight⟩ := ih (c.plot first)
      exact ⟨hwidth.trans (c.size_plot first).1, hheight.trans (c.size_plot first).2⟩

theorem size_draw (c : Canvas) (call : DrawCall) :
    (c.draw call).width = c.width ∧ (c.draw call).height = c.height := c.size_plotAll _

theorem size_drawAll (c : Canvas) (calls : List DrawCall) :
    (c.drawAll calls).width = c.width ∧ (c.drawAll calls).height = c.height := by
  induction calls generalizing c with
  | nil => exact ⟨rfl, rfl⟩
  | cons first rest ih =>
      obtain ⟨hwidth, hheight⟩ := ih (c.draw first)
      exact ⟨hwidth.trans (c.size_draw first).1, hheight.trans (c.size_draw first).2⟩

theorem bounds_draw (c : Canvas) (call : DrawCall) : (c.draw call).bounds = c.bounds := by
  obtain ⟨hwidth, hheight⟩ := c.size_draw call
  rw [bounds, hwidth, hheight, bounds]

theorem contains_bounds (hx : x < c.width) (hy : y < c.height) :
    c.bounds.contains x y = true := by
  rw [Rect.contains_iff]
  dsimp only [bounds, Rect.sized]
  omega

theorem pixel?_filled {width height : Nat} {background : Color} (hx : x < width)
    (hy : y < height) : (filled width height background).pixel? x y = some background := by
  unfold filled pixel?
  rw [if_pos ⟨hx, hy⟩, Array.getElem?_replicate, if_pos (index_lt hx hy)]

theorem pixel?_plotAll_of_off {dots : List Dot} (hoff : ∀ d ∈ dots, ¬ (d.x = x ∧ d.y = y)) :
    (c.plotAll dots).pixel? x y = c.pixel? x y := by
  have hdots : dotsOn dots x y = [] :=
    List.filter_eq_nil_iff.mpr fun d hd => by simpa using hoff d hd
  rw [pixel?_plotAll, hdots]
  exact Option.map_id'

/-- A pixel stays as it is if no call paints a dot there. -/
theorem pixel?_drawAll_of_off {calls : List DrawCall}
    (hoff : ∀ call ∈ calls, ∀ bounds, ∀ d ∈ call.dots bounds, ¬ (d.x = x ∧ d.y = y)) :
    (c.drawAll calls).pixel? x y = c.pixel? x y := by
  induction calls generalizing c with
  | nil => rfl
  | cons first rest ih =>
      obtain ⟨hfirst, hrest⟩ := List.forall_mem_cons.mp hoff
      exact (ih hrest).trans (pixel?_plotAll_of_off (hfirst c.bounds))

end Canvas

end PanelSkin
