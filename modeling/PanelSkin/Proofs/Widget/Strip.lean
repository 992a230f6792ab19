import PanelSkin.Proofs.Graphics.Rect
import PanelSkin.Proofs.Graphics.Word
import PanelSkin.Widget.Bar

/-!
Strips across a box. A bar grows from one side of its box, and all that is drawn of it are strips of
the box: those pixels which are so far from that side. So a strip lies inside the box, and that of
the opposite direction is its mirror image.
-/

namespace PanelSkin

namespace Direction

/-- The number of pixels of a box in the direction of growth. -/
def pixels (d : Direction) (box : Rect) : Int :=
  match d with
  | .leftToRight | .rightToLeft => box.x2 - box.x1 + 1
  | .topToBottom | .bottomToTop => box.y2 - box.y1 + 1

/-- The number of pixels between a point and the side on which the bar starts to grow. -/
def depth (d : Direction) (box : Rect) (x y : Int) : Int :=
  match d with
  | .leftToRight => x - box.x1
  | .rightToLeft => box.x2 - x
  | .topToBottom => y - box.y1
  | .bottomToTop => box.y2 - y

def opposite : Direction → Direction
  | .leftToRight => .rightToLeft
  | .rightToLeft => .leftToRight
  | .topToBottom => .bottomToTop
  | .bottomToTop => .topToBottom

/-- The mirror image in a box, with the side from which the bar grows and the one opposite to it
exchanged. -/
def mirrored (d : Direction) (box r : Rect) : Rect :=
  match d with
  | .leftToRight | .rightToLeft => ⟨box.x1 + box.x2 - r.x2, r.y1, box.x1 + box.x2 - r.x1, r.y2⟩
  | .topToBottom | .bottomToTop => ⟨r.x1, box.y1 + box.y2 - r.y2, r.x2, box.y1 + box.y2 - r.y1⟩

variable {d : Direction} {box : Rect} {start length : Int}

theorem one_le_pixels (hsome : box.isEmpty = false) : 1 ≤ d.pixels box := by
  rw [Rect.isEmpty_eq_false_iff] at hsome
  cases d with
  | leftToRight | rightToLeft | topToBottom | bottomToTop =>
      dsimp only [pixels]
      omega

/-- The extent that a bar counts with is the number of pixels, or the largest word if there are
more. -/
theorem extentOf_eq (hsome : box.isEmpty = false) :
    d.extentOf box = min (d.pixels box) (2 ^ 31 - 1) := by
  cases d with
  | leftToRight | rightToLeft => exact Rect.width_eq hsome
  | topToBottom | bottomToTop => exact Rect.height_eq hsome

theorem one_le_extentOf (hsome : box.isEmpty = false) : 1 ≤ d.extentOf box := by
  have hpixels := one_le_pixels (d := d) hsome
  rw [extentOf_eq hsome]
  omega

theorem extentOf_isWord (hsome : box.isEmpty = false) : IsWord 32 (d.extentOf box) := by
  have hone := one_le_extentOf (d := d) hsome
  rw [extentOf_eq hsome] at *
  unfold IsWord
  omega

theorem extentOf_opposite (d : Direction) (box : Rect) :
    d.opposite.extentOf box = d.extentOf box := by
  cases d with
  | leftToRight | rightToLeft | topToBottom | bottomToTop => rfl

theorem depth_nonneg {x y : Int} (h : box.contains x y = true) : 0 ≤ d.depth box x y := by
  rw [Rect.contains_iff] at h
  cases d with
  | leftToRight | rightToLeft | topToBottom | bottomToTop =>
      dsimp only [depth]
      omega

/-- The strip from `start` on is what is in the box at depths from `start` on. -/
theorem contains_strip (hstart : 0 ≤ start) (hend : start + length ≤ d.pixels box) (x y : Int) :
    (d.strip box start length).contains x y = true ↔
      box.contains x y = true ∧ start ≤ d.depth box x y ∧ d.depth box x y < start + length := by
  rw [Rect.contains_iff, Rect.contains_iff]
  cases d with
  | leftToRight | rightToLeft | topToBottom | bottomToTop =>
      dsimp only [strip, depth, pixels] at *
      omega

/-- A strip of a box, if there is one, has those pixels that are from one depth on and before
another. -/
def Covers (d : Direction) (box : Rect) (start stop : Int) (strip : Option Rect) : Prop :=
  ∀ x y, (∃ r, strip = some r ∧ r.contains x y = true) ↔
    box.contains x y = true ∧ start ≤ d.depth box x y ∧ d.depth box x y < stop

theorem covers_strip (hstart : 0 ≤ start) (hend : start + length ≤ d.pixels box) :
    d.Covers box start (start + length) (some (d.strip box start length)) := by
  intro x y
  rw [← contains_strip hstart hend x y]
  constructor
  · rintro ⟨r, hr, hinside⟩
    cases hr
    exact hinside
  · intro hinside
    exact ⟨_, rfl, hinside⟩

/-- Nothing is in a box before its first line. -/
theorem covers_none {stop : Int} (hstop : stop ≤ 0) : d.Covers box start stop none := by
  intro x y
  constructor
  · rintro ⟨_, hnone, _⟩
    cases hnone
  · rintro ⟨hinside, _, hbefore⟩
    have hdepth : 0 ≤ d.depth box x y := depth_nonneg hinside
    omega

theorem strip_opposite (d : Direction) (box : Rect) (start length : Int) :
    d.opposite.strip box start length = d.mirrored box (d.strip box start length) := by
  cases d with
  | leftToRight | rightToLeft | topToBottom | bottomToTop =>
      dsimp only [opposite, strip, mirrored]
      rw [Rect.mk.injEq]
      omega

/-- A strip inside the extent of a box is made of words. -/
theorem strip_inWords (hwords : box.InWords) (hsome : box.isEmpty = false) (hstart : 0 ≤ start)
    (hlength : 1 ≤ length) (hend : start + length ≤ d.extentOf box) :
    (d.strip box start length).InWords := by
  rw [extentOf_eq hsome] at hend
  obtain ⟨hx1, hy1, hx2, hy2⟩ := hwords
  unfold IsWord at *
  cases d with
  | leftToRight | rightToLeft | topToBottom | bottomToTop =>
      dsimp only [pixels] at hend
      dsimp only [strip]
      constructor
      all_goals
        unfold IsWord
        dsimp only
        omega

/-- The strip from `start` on, computed in words. -/
def strip? (d : Direction) (box : Rect) (start length : Int) : Option Rect := do
  let stop ← word? 32 (start + length)
  let last ← word? 32 (stop - 1)
  match d with
  | .leftToRight => return ⟨← word? 32 (box.x1 + start), box.y1, ← word? 32 (box.x1 + last), box.y2⟩
  | .rightToLeft => return ⟨← word? 32 (box.x2 - last), box.y1, ← word? 32 (box.x2 - start), box.y2⟩
  | .topToBottom => return ⟨box.x1, ← word? 32 (box.y1 + start), box.x2, ← word? 32 (box.y1 + last)⟩
  | .bottomToTop => return ⟨box.x1, ← word? 32 (box.y2 - last), box.x2, ← word? 32 (box.y2 - start)⟩

theorem strip?_eq (hwords : box.InWords) (hsome : box.isEmpty = false) (hstart : 0 ≤ start)
    (hlength : 1 ≤ length) (hend : start + length ≤ d.extentOf box) :
    d.strip? box start length = some (d.strip box start length) := by
  have hstrip := strip_inWords hwords hsome hstart hlength hend
  rw [extentOf_eq hsome] at hend
  have hstop : IsWord 32 (start + length) := by
    unfold IsWord
    omega
  have hlast : IsWord 32 (start + length - 1) := by
    unfold IsWord
    omega
  unfold strip?
  rw [word?_of_isWord hstop]
  dsimp only [Option.bind_eq_bind, Option.bind_some]
  rw [word?_of_isWord hlast]
  cases d with
  | leftToRight | rightToLeft =>
      dsimp only [strip, Option.bind_eq_bind, Option.bind_some] at hstrip ⊢
      rw [word?_of_isWord hstrip.x1, word?_of_isWord hstrip.x2]
      rfl
  | topToBottom | bottomToTop =>
      dsimp only [strip, Option.bind_eq_bind, Option.bind_some] at hstrip ⊢
      rw [word?_of_isWord hstrip.y1, word?_of_isWord hstrip.y2]
      rfl

end Direction

end PanelSkin
