import PanelSkin.Proofs.Graphics.Canvas
import PanelSkin.Proofs.Picture.Scaling

/-!
A canvas through any number of changes. A dot is drawn over what is there, a pixel is set, or all
pixels are; whichever it is, the buffer keeps one color for each pixel, and finds it at an index
that fits a word. What a pixel shows is up to the changes that fall on it alone, one after the
other, and a dot leaves every channel between its own color and the one below.
-/

namespace PanelSkin

namespace Color

/-- A channel is not outside of what lies between two others. -/
def Between (source target channel : UInt8) : Prop :=
  min source.toNat target.toNat ≤ channel.toNat ∧ channel.toNat ≤ max source.toNat target.toNat

/-- Red, green and blue are each between those of two colors. -/
structure Blends (source target result : Color) : Prop where
  r : Between source.r target.r result.r
  g : Between source.g target.g result.g
  b : Between source.b target.b result.b

theorem mean_bounds {alpha : Nat} (halpha : alpha ≤ 255) (source target : Nat) :
    min source target ≤ (source * alpha + target * (255 - alpha)) / 255 ∧
      (source * alpha + target * (255 - alpha)) / 255 ≤ max source target := by
  have hshares (n : Nat) : n * alpha + n * (255 - alpha) = n * 255 := by
    rw [← Nat.mul_add, Nat.add_sub_cancel' halpha]
  constructor
  · rw [Nat.le_div_iff_mul_le (by decide), ← hshares]
    exact Nat.add_le_add (Nat.mul_le_mul_right _ (Nat.min_le_left _ _))
      (Nat.mul_le_mul_right _ (Nat.min_le_right _ _))
  · apply Nat.div_le_of_le_mul
    rw [Nat.mul_comm 255, ← hshares]
    exact Nat.add_le_add (Nat.mul_le_mul_right _ (Nat.le_max_left _ _))
      (Nat.mul_le_mul_right _ (Nat.le_max_right _ _))

/-- The mean of two channels is a channel, so that nothing is cut off. -/
theorem toNat_mix (alpha source target : UInt8) :
    (mix alpha source target).toNat =
      (source.toNat * alpha.toNat + target.toNat * (255 - alpha.toNat)) / 255 := by
  have halpha := alpha.toNat_lt
  have hsource := source.toNat_lt
  have htarget := target.toNat_lt
  obtain ⟨-, hmost⟩ := mean_bounds (Nat.le_of_lt_succ halpha) source.toNat target.toNat
  rw [mix, UInt8.toNat_ofNat', Nat.mod_eq_of_lt (by omega)]

theorem mix_between (alpha source target : UInt8) :
    Between source target (mix alpha source target) := by
  rw [Between, toNat_mix]
  exact mean_bounds (Nat.le_of_lt_succ alpha.toNat_lt) _ _

theorem onto_blends (source target : Color) : Blends source target (source.onto target) := by
  unfold onto
  split
  · exact ⟨⟨Nat.min_le_right _ _, Nat.le_max_right _ _⟩,
      ⟨Nat.min_le_right _ _, Nat.le_max_right _ _⟩, ⟨Nat.min_le_right _ _, Nat.le_max_right _ _⟩⟩
  · split
    · exact ⟨⟨Nat.min_le_left _ _, Nat.le_max_left _ _⟩,
        ⟨Nat.min_le_left _ _, Nat.le_max_left _ _⟩, ⟨Nat.min_le_left _ _, Nat.le_max_left _ _⟩⟩
    · exact ⟨mix_between _ _ _, mix_between _ _ _, mix_between _ _ _⟩

theorem onto_of_transparent {source target : Color} (h : source.a = 0) :
    source.onto target = target := if_pos h

theorem onto_of_opaque {source target : Color} (h : source.a = 255) :
    source.onto target = source := by
  rw [onto, if_neg (by rw [h]; decide), if_pos h]

theorem opaque_onto {source target : Color} (h : source.a ≠ 0) : (source.onto target).a = 255 := by
  rw [onto, if_neg h]
  split
  · assumption
  · rfl

end Color

namespace Canvas

/-- Something done to the pixels of a canvas. -/
inductive Change where
  | dot (d : Dot)
  | set (x y : Nat) (color : Color)
  | clear (color : Color)

namespace Change

def apply (c : Canvas) : Change → Canvas
  | .dot d => c.plot d
  | .set x y color => c.setPixel x y color
  | .clear color => c.clear color

/-- Whether a change falls on a pixel. -/
def fallsOn (x y : Nat) : Change → Bool
  | .dot d => d.x = x ∧ d.y = y
  | .set i j _ => i = x ∧ j = y
  | .clear _ => true

/-- What a change makes of the color of a pixel that it falls on. -/
def shade : Change → Color → Color
  | .dot d => d.color.onto
  | .set _ _ color | .clear color => fun _ => color

end Change

def changed (c : Canvas) (changes : List Change) : Canvas := changes.foldl Change.apply c

/-- What changes make of a color, one after the other. -/
def shaded (changes : List Change) (below : Color) : Color :=
  changes.foldl (fun below change => change.shade below) below

/-- There is one color for every pixel, and their number fits a word. -/
structure IsWhole (c : Canvas) : Prop where
  size : c.pixels.size = c.width * c.height
  fits : c.width * c.height < 2 ^ 32

/-- The index of a pixel, computed in words of 32 bits without a sign. -/
def index? (c : Canvas) (x y : Nat) : Option Nat := do
  natural? 32 ((← natural? 32 (y * c.width)) + x)

variable {c : Canvas} {x y : Nat}

theorem isWhole_filled {width height : Nat} (h : width * height < 2 ^ 32) (background : Color) :
    (filled width height background).IsWhole where
  size := Array.size_replicate
  fits := h

theorem IsWhole.index?_eq (h : c.IsWhole) (hx : x < c.width) (hy : y < c.height) :
    c.index? x y = some (y * c.width + x) := by
  have hindex := index_lt hx hy
  have hfits := h.fits
  have hrow : natural? 32 (y * c.width) = some (y * c.width) := natural?_of_lt (by omega)
  rw [index?, hrow, Option.bind_eq_bind, Option.bind_some, natural?_of_lt (by omega)]

theorem IsWhole.pixel?_eq_none_iff (h : c.IsWhole) :
    c.pixel? x y = none ↔ ¬ (x < c.width ∧ y < c.height) := by
  unfold pixel?
  split
  · rename_i hinside
    have hindex := index_lt hinside.1 hinside.2
    rw [Array.getElem?_eq_none_iff, h.size]
    constructor
    · intro hbehind
      omega
    · intro houtside
      exact absurd hinside houtside
  · rename_i houtside
    exact ⟨fun _ => houtside, fun _ => rfl⟩

theorem size_setPixel (c : Canvas) (x y : Nat) (color : Color) :
    (c.setPixel x y color).width = c.width ∧ (c.setPixel x y color).height = c.height ∧
      (c.setPixel x y color).pixels.size = c.pixels.size := by
  unfold setPixel
  split
  · exact ⟨rfl, rfl, by rw [Array.set!_eq_setIfInBounds, Array.size_setIfInBounds]⟩
  · exact ⟨rfl, rfl, rfl⟩

theorem size_pixels_plot (c : Canvas) (d : Dot) : (c.plot d).pixels.size = c.pixels.size := by
  unfold plot
  split
  · split
    · exact (c.size_setPixel _ _ _).2.2
    · rfl
  · rfl

/-- A change leaves the size of a canvas, and one color for every pixel. -/
theorem IsWhole.apply (h : c.IsWhole) (change : Change) :
    (change.apply c).width = c.width ∧ (change.apply c).height = c.height ∧
      (change.apply c).IsWhole := by
  cases change with
  | dot d =>
      obtain ⟨hwidth, hheight⟩ := c.size_plot d
      refine ⟨hwidth, hheight, ?_, ?_⟩
      · rw [Change.apply, size_pixels_plot, hwidth, hheight, h.size]
      · rw [Change.apply, hwidth, hheight]
        exact h.fits
  | set i j color =>
      obtain ⟨hwidth, hheight, hsize⟩ := c.size_setPixel i j color
      refine ⟨hwidth, hheight, ?_, ?_⟩
      · rw [Change.apply, hsize, hwidth, hheight, h.size]
      · rw [Change.apply, hwidth, hheight]
        exact h.fits
  | clear color => exact ⟨rfl, rfl, isWhole_filled h.fits color⟩

theorem IsWhole.setPixel_of_none (h : c.IsWhole) (hnone : c.pixel? x y = none) (color : Color) :
    c.setPixel x y color = c := if_neg (h.pixel?_eq_none_iff.mp hnone)

theorem IsWhole.pixel?_setPixel (h : c.IsWhole) (color : Color) :
    (c.setPixel x y color).pixel? x y = (c.pixel? x y).map fun _ => color := by
  cases hshown : c.pixel? x y with
  | some below => exact pixel?_setPixel_self hshown color
  | none => rw [h.setPixel_of_none hshown, hshown, Option.map_none]

theorem IsWhole.pixel?_clear (h : c.IsWhole) (color : Color) :
    (c.clear color).pixel? x y = (c.pixel? x y).map fun _ => color := by
  cases hshown : c.pixel? x y with
  | some below =>
      have hinside := (Option.ite_none_right_eq_some.mp hshown).1
      exact pixel?_filled hinside.1 hinside.2
  | none => exact if_neg (h.pixel?_eq_none_iff.mp hshown)

/-- A change makes its color of a pixel that it falls on, and leaves all others. -/
theorem IsWhole.pixel?_apply (h : c.IsWhole) (change : Change) :
    (change.apply c).pixel? x y =
      if change.fallsOn x y then (c.pixel? x y).map change.shade else c.pixel? x y := by
  cases change with
  | dot d =>
      by_cases hon : d.x = x ∧ d.y = y
      · rw [if_pos (by simpa [Change.fallsOn] using hon)]
        exact pixel?_plot_of_on hon
      · rw [if_neg (by simpa [Change.fallsOn] using hon)]
        exact pixel?_plot_of_off hon
  | set i j color =>
      by_cases hon : i = x ∧ j = y
      · obtain ⟨rfl, rfl⟩ := hon
        rw [if_pos (by simp [Change.fallsOn])]
        exact h.pixel?_setPixel color
      · rw [if_neg (by simpa [Change.fallsOn] using hon)]
        exact pixel?_setPixel_of_ne hon color
  | clear color => exact h.pixel?_clear color

theorem IsWhole.changed (h : c.IsWhole) (changes : List Change) :
    (c.changed changes).width = c.width ∧ (c.changed changes).height = c.height ∧
      (c.changed changes).IsWhole := by
  induction changes generalizing c with
  | nil => exact ⟨rfl, rfl, h⟩
  | cons first rest ih =>
      obtain ⟨hwidth, hheight, hfirst⟩ := h.apply first
      obtain ⟨hwidth', hheight', hrest⟩ := ih hfirst
      exact ⟨hwidth'.trans hwidth, hheight'.trans hheight, hrest⟩

/-- Of all changes, a pixel shows those that fall on it. -/
theorem IsWhole.pixel?_changed (h : c.IsWhole) (changes : List Change) :
    (c.changed changes).pixel? x y =
      (c.pixel? x y).map (shaded (changes.filter (Change.fallsOn x y))) := by
  induction changes generalizing c with
  | nil => exact Option.map_id'.symm
  | cons first rest ih =>
      have hrest : (c.changed (first :: rest)).pixel? x y =
          ((first.apply c).pixel? x y).map (shaded (rest.filter (Change.fallsOn x y))) :=
        ih (h.apply first).2.2
      rw [hrest, h.pixel?_apply]
      by_cases hon : first.fallsOn x y = true
      · rw [if_pos hon, Option.map_map, List.filter_cons_of_pos hon]
        rfl
      · rw [if_neg hon, List.filter_cons_of_neg hon]

/-- A canvas is a faithful store of its pixels, through any dots drawn on it, pixels set and
clearings. The buffer keeps one color for every pixel, and each pixel on the canvas has an index
below its size, for which no word is too short. There is a color to read exactly on the canvas, and
it is what the changes that fall on the pixel make of the first one, in their order. A dot that
falls on a pixel leaves each channel between those of its own color and of the one below; one that
is transparent leaves the pixel, one that is opaque replaces it, and any other makes it opaque. -/
theorem pixels_are_kept (h : c.IsWhole) (changes : List Change) :
    let after := c.changed changes
    (after.width = c.width ∧ after.height = c.height ∧ after.IsWhole) ∧
    (∀ x y, x < c.width → y < c.height →
      after.index? x y = some (y * c.width + x) ∧ y * c.width + x < after.pixels.size) ∧
    (∀ x y, after.pixel? x y = none ↔ ¬ (x < c.width ∧ y < c.height)) ∧
    (∀ x y, after.pixel? x y =
      (c.pixel? x y).map (shaded (changes.filter (Change.fallsOn x y)))) ∧
    ∀ (d : Dot) (x y : Nat) (below : Color), d.x = x → d.y = y → after.pixel? x y = some below →
      ∃ shown, (after.plot d).pixel? x y = some shown ∧ d.color.Blends below shown ∧
        (d.color.a = 0 → shown = below) ∧ (d.color.a = 255 → shown = d.color) ∧
        (d.color.a ≠ 0 → shown.a = 255) := by
  intro after
  obtain ⟨hwidth, hheight, hwhole⟩ : after.width = c.width ∧ after.height = c.height ∧
    after.IsWhole := h.changed changes
  refine ⟨⟨hwidth, hheight, hwhole⟩, ?_, ?_, ?_, ?_⟩
  · intro x y hx hy
    rw [← hwidth] at hx
    rw [← hheight] at hy
    rw [← hwidth]
    exact ⟨hwhole.index?_eq hx hy, hwhole.size ▸ index_lt hx hy⟩
  · intro x y
    rw [← hwidth, ← hheight]
    exact hwhole.pixel?_eq_none_iff
  · intro x y
    exact h.pixel?_changed changes
  · intro d x y below hx hy hbelow
    refine ⟨d.color.onto below, ?_, Color.onto_blends _ _, ?_, ?_, ?_⟩
    · rw [pixel?_plot_of_on ⟨hx, hy⟩, hbelow, Option.map_some]
    · exact Color.onto_of_transparent
    · exact Color.onto_of_opaque
    · exact Color.opaque_onto

/-- Dots beside a canvas of three by two pixels, one that is set too far to the right, and a
translucent dot on one of its pixels. -/
theorem pixels_are_kept_three_by_two :
    let c := filled 3 2
    let changes : List Change :=
      [.dot ⟨1, 1, .black⟩, .dot ⟨-1, 1, .black⟩, .set 3 0 .black, .set 0 1 .black,
        .dot ⟨1, 1, ⟨200, 0, 0, 128⟩⟩, .dot ⟨2, 4000000000, .black⟩]
    c.IsWhole ∧ (c.changed changes).IsWhole ∧
      (c.changed changes).pixel? 1 1 = some ⟨100, 0, 0, 255⟩ ∧
      (c.changed changes).pixel? 3 0 = none := by
  intro c changes
  have hwhole : c.IsWhole := isWhole_filled (by decide) .white
  obtain ⟨⟨-, -, hafter⟩, -, houtside, hshown, -⟩ := pixels_are_kept hwhole changes
  refine ⟨hwhole, hafter, ?_, ?_⟩
  · rw [hshown]
    decide
  · rw [houtside]
    decide

end Canvas

end PanelSkin
