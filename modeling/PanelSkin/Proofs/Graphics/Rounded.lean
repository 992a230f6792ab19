import Mathlib.Algebra.Order.Ring.Abs
import Mathlib.Tactic.Linarith
import PanelSkin.Graphics.Shape
import PanelSkin.Proofs.Graphics.Region
import PanelSkin.Proofs.Graphics.Word

/-!
Rectangles with rounded corners. Rounding leaves the pixels that are not further than the radius
from the rectangle between the centres of the corners. Said in this way the test has no cases: on
each side it is up to how far the pixel is beyond the centres, which is the same for its mirror
image and grows with the radius as much as the radius does.
-/

namespace PanelSkin

/-- How far a coordinate is beyond the centres of the corners, which are `radius` away from the ends
of a side. -/
def overhang (low high radius v : Int) : Int := max 0 (max (low + radius - v) (v - (high - radius)))

/-- Half a number, rounded towards zero. -/
theorem tdiv_two (n : Int) : n.tdiv 2 = if 0 ≤ n then n / 2 else (n + 1) / 2 := by
  have hsign : Int.sign 2 = 1 := rfl
  rw [Int.tdiv_eq_ediv, hsign]
  split <;> split <;> omega

section Overhang

variable {low high radius radius' v : Int}

theorem overhang_nonneg (low high radius v : Int) : 0 ≤ overhang low high radius v :=
  Int.le_max_left _ _

theorem overhang_mirrored :
    overhang low high radius (low + high - v) = overhang low high radius v := by
  unfold overhang
  omega

theorem overhang_le (hv : low ≤ v ∧ v ≤ high) (hradius : 0 ≤ radius) :
    overhang low high radius v ≤ radius := by
  unfold overhang
  omega

theorem overhang_of_longer (hbeyond : 0 < overhang low high radius v) (hle : radius ≤ radius') :
    overhang low high radius' v = overhang low high radius v + (radius' - radius) := by
  unfold overhang at *
  omega

/-- A point in a corner that the longer radius reaches is reached by the shorter one. -/
theorem sq_add_sq_le_of_longer {a b : Int} (more : Int) (ha : 0 ≤ a) (hb : 0 ≤ b) (hmore : 0 ≤ more)
    (hin : (a + more) ^ 2 + (b + more) ^ 2 ≤ (radius + more) ^ 2) :
    a ^ 2 + b ^ 2 ≤ radius ^ 2 := by
  by_cases hfar : radius ≤ a + b
  · have hpart : 0 ≤ more * (a + b - radius) := mul_nonneg hmore (by omega)
    nlinarith [sq_nonneg more]
  · have hall : (a + b) ^ 2 ≤ radius ^ 2 := pow_le_pow_left₀ (by omega) (by omega) 2
    have hproduct : 0 ≤ a * b := mul_nonneg ha hb
    linarith [add_sq a b]

end Overhang

namespace Rect

/-- Whether rounding the corners leaves a pixel. -/
def Leaves (r : Rect) (radius x y : Int) : Prop :=
  overhang r.x1 r.x2 radius x ^ 2 + overhang r.y1 r.y2 radius y ^ 2 ≤ radius ^ 2

instance (r : Rect) (radius x y : Int) : Decidable (r.Leaves radius x y) :=
  inferInstanceAs (Decidable (_ ≤ _))

/-- There is room in a rectangle for corners of some radius. -/
structure HasRoom (r : Rect) (radius : Int) : Prop where
  nonneg : 0 ≤ radius
  columns : 2 * radius ≤ r.x2 - r.x1 + 1
  rows : 2 * radius ≤ r.y2 - r.y1 + 1

section Leaves

variable {r : Rect} {radius radius' x y : Int}

theorem leaves_zero (hinside : r.contains x y = true) : r.Leaves 0 x y := by
  obtain ⟨hx, hy⟩ := contains_iff.mp hinside
  have hacross : overhang r.x1 r.x2 0 x = 0 :=
    le_antisymm (overhang_le hx le_rfl) (overhang_nonneg _ _ _ _)
  have hdown : overhang r.y1 r.y2 0 y = 0 :=
    le_antisymm (overhang_le hy le_rfl) (overhang_nonneg _ _ _ _)
  rw [Leaves, hacross, hdown]
  decide

/-- The longer the radius, the less is left. -/
theorem Leaves.of_longer (hleaves : r.Leaves radius' x y) (hinside : r.contains x y = true)
    (hradius : 0 ≤ radius) (hle : radius ≤ radius') : r.Leaves radius x y := by
  obtain ⟨hx, hy⟩ := contains_iff.mp hinside
  have hacross := overhang_le hx hradius
  have hdown := overhang_le hy hradius
  unfold Leaves at *
  -- beyond the centres on one side only, a pixel of the rectangle is not too far
  obtain hacross' | hacross' := (overhang_nonneg r.x1 r.x2 radius x).eq_or_lt
  · rw [← hacross', zero_pow two_ne_zero, zero_add]
    exact pow_le_pow_left₀ (overhang_nonneg _ _ _ _) hdown 2
  obtain hdown' | hdown' := (overhang_nonneg r.y1 r.y2 radius y).eq_or_lt
  · rw [← hdown', zero_pow two_ne_zero, add_zero]
    exact pow_le_pow_left₀ (overhang_nonneg _ _ _ _) hacross 2
  rw [overhang_of_longer hacross' hle, overhang_of_longer hdown' hle] at hleaves
  refine sq_add_sq_le_of_longer (radius' - radius) hacross'.le hdown'.le (by omega) ?_
  rwa [add_sub_cancel]

end Leaves

/-- The centre of the corners beyond which a coordinate is, if it is beyond one. -/
def cornerCentre? (low high radius v : Int) : Option Int :=
  if v < low + radius then some (low + radius)
  else if high - radius < v then some (high - radius)
  else none

theorem cornerCentre?_spec {low high radius : Int} (hroom : 2 * radius ≤ high - low + 1) (v : Int) :
    (∃ centre, cornerCentre? low high radius v = some centre ∧
      |v - centre| = overhang low high radius v) ∨
    cornerCentre? low high radius v = none ∧ overhang low high radius v = 0 := by
  unfold cornerCentre?
  split
  · have hbefore : overhang low high radius v = low + radius - v := by
      unfold overhang
      omega
    left
    exact ⟨_, rfl, by rw [hbefore, abs_of_neg (by omega), neg_sub]⟩
  split
  · have hbehind : overhang low high radius v = v - (high - radius) := by
      unfold overhang
      omega
    left
    exact ⟨_, rfl, by rw [hbehind, abs_of_pos (by omega)]⟩
  · right
    refine ⟨rfl, ?_⟩
    unfold overhang
    omega

section Rounded

variable {r bounds : Rect} {radius : Int} {p : Point}

/-- The test picks the centre of a corner, and only in the square of the corner. -/
theorem rounded_apply (r : Rect) (radius x y : Int) :
    r.rounded radius x y = some (r.contains x y &&
      match cornerCentre? r.x1 r.x2 radius x, cornerCentre? r.y1 r.y2 radius y with
      | some cx, some cy => decide ((x - cx) * (x - cx) + (y - cy) * (y - cy) ≤ radius * radius)
      | _, _ => true) := rfl

theorem rounded_eq (hroom : r.HasRoom radius) (x y : Int) :
    r.rounded radius x y = some (r.contains x y && decide (r.Leaves radius x y)) := by
  rw [rounded_apply]
  cases hinside : r.contains x y with
  | false => rfl
  | true =>
    obtain ⟨hx, hy⟩ := contains_iff.mp hinside
    have hacross := pow_le_pow_left₀ (overhang_nonneg _ _ _ _) (overhang_le hx hroom.nonneg) 2
    have hdown := pow_le_pow_left₀ (overhang_nonneg _ _ _ _) (overhang_le hy hroom.nonneg) 2
    refine congrArg some (congrArg (true && ·) ?_)
    unfold Leaves
    obtain ⟨cx, hcx, hdistance⟩ | ⟨hcx, hzero⟩ := cornerCentre?_spec hroom.columns x
    · obtain ⟨cy, hcy, hdistance'⟩ | ⟨hcy, hzero⟩ := cornerCentre?_spec hroom.rows y
      · simp only [hcx, hcy, ← hdistance, ← hdistance', sq, abs_mul_abs_self]
      · simp [hcx, hcy, hzero, hacross]
    · simp [hcx, hzero, hdown]

/-- The limit of the radius is not negative if the corners of a rectangle have not passed each other
by more than two pixels. -/
theorem radiusLimit_nonneg_iff : 0 ≤ r.radiusLimit ↔ r.x1 ≤ r.x2 + 2 ∧ r.y1 ≤ r.y2 + 2 := by
  rw [radiusLimit, tdiv_two]
  unfold width height saturate
  omega

theorem radiusLimit_of_isEmpty (hempty : r.isEmpty = true) : r.radiusLimit ≤ 0 := by
  rw [isEmpty, Bool.or_eq_true, decide_eq_true_eq, decide_eq_true_eq] at hempty
  rw [radiusLimit, tdiv_two]
  unfold width height saturate
  omega

theorem radiusLimit_eq (hsome : r.isEmpty = false) : r.radiusLimit = min r.width r.height / 2 := by
  have hwidth := width_pos hsome
  have hheight := height_pos hsome
  rw [radiusLimit, tdiv_two, if_pos (by omega)]

/-- What is made of a radius that is asked for. -/
def heldRadius (r : Rect) (radius : Int) : Int := max 0 (min radius r.radiusLimit)

theorem effectiveRadius?_eq_none (hlimit : ¬ 0 ≤ r.radiusLimit) (radius : Int) :
    r.effectiveRadius? radius = none := if_neg hlimit

theorem effectiveRadius?_eq (hlimit : 0 ≤ r.radiusLimit) (radius : Int) :
    r.effectiveRadius? radius = some (r.heldRadius radius) := if_pos hlimit

theorem radiusLimit_nonneg (hsome : r.isEmpty = false) : 0 ≤ r.radiusLimit := by
  rw [isEmpty_eq_false_iff] at hsome
  exact radiusLimit_nonneg_iff.mpr (by omega)

theorem hasRoom (hsome : r.isEmpty = false) (radius : Int) : r.HasRoom (r.heldRadius radius) := by
  have hwidth := width_eq hsome
  have hheight := height_eq hsome
  have hhalf := radiusLimit_eq hsome
  rw [isEmpty_eq_false_iff] at hsome
  unfold heldRadius
  constructor <;> omega

theorem drawnRounded_of_effective {n : Int} (hradius : r.effectiveRadius? radius = some n)
    (hpositive : 1 ≤ n) (filled : Bool) (bounds : Rect) :
    r.drawnRounded filled radius bounds = Region.points (r.rounded n) r filled bounds := by
  unfold drawnRounded
  rw [hradius]
  split
  · contradiction
  · rename_i hzero
    obtain hzero := Option.some.inj hzero
    omega
  · rename_i hsame
    rw [Option.some.inj hsame]

theorem drawnRounded_of_pos (hlimit : 0 ≤ r.radiusLimit) (hpositive : 1 ≤ r.heldRadius radius)
    (filled : Bool) (bounds : Rect) :
    r.drawnRounded filled radius bounds
      = Region.points (r.rounded (r.heldRadius radius)) r filled bounds :=
  drawnRounded_of_effective (effectiveRadius?_eq hlimit radius) hpositive filled bounds

theorem drawnRounded_of_zero (hlimit : 0 ≤ r.radiusLimit) (hzero : r.heldRadius radius = 0)
    (filled : Bool) (bounds : Rect) :
    r.drawnRounded filled radius bounds = r.drawn filled bounds := by
  unfold drawnRounded
  rw [effectiveRadius?_eq hlimit, hzero]
  rfl

/-- A rectangle without pixels shows nothing, with or without a radius. -/
theorem drawnRounded_of_isEmpty (hempty : r.isEmpty = true) (filled : Bool) (radius : Int)
    (bounds : Rect) : r.drawnRounded filled radius bounds = [] := by
  by_cases hlimit : 0 ≤ r.radiusLimit
  · have hshort := radiusLimit_of_isEmpty hempty
    have hzero : r.heldRadius radius = 0 := by
      unfold heldRadius
      omega
    rw [drawnRounded_of_zero hlimit hzero, drawn, if_pos hempty]
  · unfold drawnRounded
    rw [effectiveRadius?_eq_none hlimit]

theorem drawnRounded_congr {radius' : Int} (hlimit : 0 ≤ r.radiusLimit)
    (hheld : r.heldRadius radius = r.heldRadius radius') (filled : Bool) (bounds : Rect) :
    r.drawnRounded filled radius bounds = r.drawnRounded filled radius' bounds := by
  unfold drawnRounded
  rw [effectiveRadius?_eq hlimit, effectiveRadius?_eq hlimit, hheld]

theorem mem_drawnRounded_filled (hsome : r.isEmpty = false) :
    p ∈ r.drawnRounded true radius bounds ↔ r.contains p.x p.y = true
      ∧ bounds.contains p.x p.y = true ∧ r.Leaves (r.heldRadius radius) p.x p.y := by
  have hlimit := radiusLimit_nonneg hsome
  have hroom := hasRoom hsome radius
  obtain hzero | hpositive := hroom.nonneg.eq_or_lt
  · have hfilled : r.drawn true bounds = (r.intersect bounds).points := by
      rw [drawn, hsome]
      rfl
    rw [drawnRounded_of_zero hlimit hzero.symm, hfilled, mem_points_intersect, ← hzero]
    exact ⟨fun h => ⟨h.1, h.2, leaves_zero h.1⟩, fun h => ⟨h.1, h.2.1⟩⟩
  · rw [drawnRounded_of_pos hlimit hpositive, Region.mem_points_filled (rounded_eq hroom),
      Bool.and_eq_true, decide_eq_true_eq]
    exact ⟨fun h => ⟨h.1, h.2.1, h.2.2.2⟩, fun h => ⟨h.1, h.2.1, h.1, h.2.2⟩⟩

theorem nodup_drawnRounded_filled (hsome : r.isEmpty = false) (radius : Int) (bounds : Rect) :
    (r.drawnRounded true radius bounds).Nodup := by
  have hlimit := radiusLimit_nonneg hsome
  have hroom := hasRoom hsome radius
  obtain hzero | hpositive := hroom.nonneg.eq_or_lt
  · rw [drawnRounded_of_zero hlimit hzero.symm, drawn, hsome]
    exact nodup_points _
  · rw [drawnRounded_of_pos hlimit hpositive]
    exact Region.nodup_points _ r true bounds

/-- A rectangle with rounded corners in sight. -/
theorem mem_drawnRounded_of_within (hsome : r.isEmpty = false) (hwithin : r.Within bounds) :
    p ∈ r.drawnRounded true radius bounds
      ↔ r.contains p.x p.y = true ∧ r.Leaves (r.heldRadius radius) p.x p.y := by
  rw [mem_drawnRounded_filled hsome]
  exact ⟨fun h => ⟨h.1, h.2.2⟩, fun h => ⟨h.1, hwithin.contains h.1, h.2⟩⟩

theorem mem_drawnRounded_outline (hsome : r.isEmpty = false) (hwithin : r.Within bounds)
    (hpositive : 1 ≤ r.heldRadius radius) :
    p ∈ r.drawnRounded false radius bounds ↔ p ∈ r.drawnRounded true radius bounds
      ∧ ∃ q ∈ p.neighbours, q ∉ r.drawnRounded true radius bounds := by
  have hlimit := radiusLimit_nonneg hsome
  have hroom := hasRoom hsome radius
  have hout (q : Point) : q ∉ r.drawnRounded true radius bounds
      ↔ (r.contains q.x q.y && decide (r.Leaves (r.heldRadius radius) q.x q.y)) = false := by
    rw [mem_drawnRounded_of_within hsome hwithin, ← Bool.not_eq_true, Bool.and_eq_true,
      decide_eq_true_eq]
  simp only [hout]
  rw [drawnRounded_of_pos hlimit hpositive, Region.mem_points_outline (rounded_eq hroom),
    drawnRounded_of_pos hlimit hpositive, Region.mem_points_filled (rounded_eq hroom)]

theorem heldRadius_mono {radius' : Int} (hle : radius ≤ radius') :
    r.heldRadius radius ≤ r.heldRadius radius' := by
  unfold heldRadius
  omega

/-- Of a rectangle in sight, rounding the corners leaves the pixels that are not further than the
radius from the rectangle between the centres of the corners, where a radius of more than half the
shorter side counts as half of it. They lie the same way on both sides, above and below; all are
left if the radius is not positive, and the longer it is, the fewer. Of two rows and two columns or
more the outline has the pixels next to one that is not left, and each of them once. -/
theorem rounds_symmetric_and_nested {r bounds : Rect} (hsome : r.isEmpty = false)
    (hwithin : r.Within bounds) :
    let shape := fun radius => r.drawnRounded true radius bounds
    let half := min r.width r.height / 2
    (∀ radius, (shape radius).Nodup ∧ ∀ p, p ∈ shape radius ↔
        r.contains p.x p.y = true ∧ r.Leaves (max 0 (min radius half)) p.x p.y) ∧
      (∀ radius x y, ⟨x, y⟩ ∈ shape radius ↔ ⟨r.x1 + r.x2 - x, y⟩ ∈ shape radius) ∧
      (∀ radius x y, ⟨x, y⟩ ∈ shape radius ↔ ⟨x, r.y1 + r.y2 - y⟩ ∈ shape radius) ∧
      (∀ radius ≤ 0, ∀ p, p ∈ shape radius ↔ r.contains p.x p.y = true) ∧
      (∀ radius radius', radius ≤ radius' → shape radius' ⊆ shape radius) ∧
      (∀ radius, half ≤ radius → shape radius = shape half) ∧
      ∀ radius, 1 ≤ radius → 2 ≤ r.width → 2 ≤ r.height →
        let outline := r.drawnRounded false radius bounds
        outline.Nodup ∧
          ∀ p, p ∈ outline ↔ p ∈ shape radius ∧ ∃ q ∈ p.neighbours, q ∉ shape radius := by
  intro shape half
  have hhalf : r.radiusLimit = half := radiusLimit_eq hsome
  have hlimit := radiusLimit_nonneg hsome
  have hshape (radius : Int) (p : Point) : p ∈ shape radius
      ↔ r.contains p.x p.y = true ∧ r.Leaves (r.heldRadius radius) p.x p.y :=
    mem_drawnRounded_of_within hsome hwithin
  refine ⟨fun radius => ⟨nodup_drawnRounded_filled hsome radius bounds, ?_⟩, ?_, ?_, ?_, ?_, ?_, ?_⟩
  · rw [← hhalf]
    exact hshape radius
  · intro radius x y
    rw [hshape, hshape, contains_iff, contains_iff]
    dsimp only [Leaves]
    rw [overhang_mirrored]
    exact and_congr_left fun _ => by omega
  · intro radius x y
    rw [hshape, hshape, contains_iff, contains_iff]
    dsimp only [Leaves]
    rw [overhang_mirrored]
    exact and_congr_left fun _ => by omega
  · intro radius hnone p
    have hzero : r.heldRadius radius = 0 := by
      unfold heldRadius
      omega
    rw [hshape, hzero]
    exact ⟨And.left, fun hinside => ⟨hinside, leaves_zero hinside⟩⟩
  · intro radius radius' hle p hp
    rw [hshape] at hp ⊢
    exact ⟨hp.1, hp.2.of_longer hp.1 (hasRoom hsome radius).nonneg (heldRadius_mono hle)⟩
  · intro radius hlong
    apply drawnRounded_congr hlimit
    unfold heldRadius
    omega
  · intro radius hradius hcolumns hrows
    have hpositive : 1 ≤ r.heldRadius radius := by
      unfold heldRadius
      omega
    refine ⟨?_, fun p => mem_drawnRounded_outline hsome hwithin hpositive⟩
    rw [drawnRounded_of_pos hlimit hpositive]
    exact Region.nodup_points _ r false bounds

end Rounded

/-- A rectangle of six columns and five rows has room for corners of two pixels. Each is without its
three outermost pixels. -/
theorem rounds_symmetric_and_nested_six_by_five :
    let r : Rect := ⟨1, 1, 6, 5⟩
    let bounds : Rect := ⟨0, 0, 7, 7⟩
    let shape := fun radius => r.drawnRounded true radius bounds
    r.isEmpty = false ∧ r.Within bounds ∧ min r.width r.height / 2 = 2 ∧
      (shape 9).length = 6 * 5 - 4 * 3 ∧ ⟨2, 1⟩ ∉ shape 9 ∧ ⟨3, 1⟩ ∈ shape 9 ∧
      (⟨3, 1⟩ ∈ shape 9 ↔ ⟨1 + 6 - 3, 1⟩ ∈ shape 9) ∧ shape 9 = shape 2 ∧ shape 9 ⊆ shape 1 ∧
      (⟨2, 2⟩ ∈ r.drawnRounded false 9 bounds ↔
        ⟨2, 2⟩ ∈ shape 9 ∧ ∃ q ∈ (⟨2, 2⟩ : Point).neighbours, q ∉ shape 9) := by
  intro r bounds shape
  have hsome : r.isEmpty = false := by decide
  have hwithin : r.Within bounds := ⟨by decide, by decide, by decide, by decide⟩
  obtain ⟨-, hacross, -, -, hnested, hheld, houtline⟩ := rounds_symmetric_and_nested hsome hwithin
  exact ⟨hsome, hwithin, by decide, by decide, by decide, by decide, hacross 9 3 1,
    hheld 9 (by decide), hnested 1 9 (by decide),
    (houtline 9 (by decide) (by decide) (by decide)).2 ⟨2, 2⟩⟩

section Words

variable {r : Rect} {radius : Int}

/-- The centre of the corners, computed in words of 32 bits. -/
def centreInWords (low high radius v : Int) : Option (Option Int) := do
  let first ← word? 32 (low + radius)
  if v < first then return some first
  let last ← word? 32 (high - radius)
  return if last < v then some last else none

/-- The square of a distance, which is computed in words of 32 bits, in words of 64 bits. -/
def squareInWords (v centre : Int) : Option Int := do
  let distance ← word? 32 (v - centre)
  word? 64 (distance * distance)

/-- The inside of a rectangle with rounded corners, computed in words of 32 and of 64 bits. -/
def roundedInWords (r : Rect) (radius : Int) : Region := fun x y => do
  if ¬ r.contains x y then return false
  let some cx ← centreInWords r.x1 r.x2 radius x | return true
  let some cy ← centreInWords r.y1 r.y2 radius y | return true
  let distance ← word? 64 ((← squareInWords x cx) + (← squareInWords y cy))
  return distance ≤ (← word? 64 (radius * radius))

theorem centreInWords_eq {low high v : Int} (hlow : IsWord 32 low) (hhigh : IsWord 32 high)
    (hradius : 0 ≤ radius) (hroom : 2 * radius ≤ high - low + 1) :
    centreInWords low high radius v = some (cornerCentre? low high radius v) := by
  have hfirst : IsWord 32 (low + radius) := by
    unfold IsWord at *
    omega
  have hlast : IsWord 32 (high - radius) := by
    unfold IsWord at *
    omega
  unfold centreInWords cornerCentre?
  rw [word?_of_isWord hfirst, word?_of_isWord hlast]
  dsimp only [Option.bind_eq_bind, Option.bind_some]
  split <;> rfl

theorem squareInWords_eq {v centre bound : Int} (h : |v - centre| ≤ bound)
    (hbound : bound ≤ 2 ^ 30) :
    squareInWords v centre = some ((v - centre) * (v - centre)) ∧
      (v - centre) * (v - centre) ≤ 2 ^ 60 := by
  have hfar := h.trans hbound
  have hsquare : (v - centre) * (v - centre) ≤ 2 ^ 30 * 2 ^ 30 := by
    rw [← abs_mul_abs_self]
    exact mul_le_mul hfar hfar (abs_nonneg _) (by decide)
  have hnonneg := mul_self_nonneg (v - centre)
  have hword : IsWord 32 (v - centre) := by
    rw [abs_le] at hfar
    unfold IsWord
    omega
  have hword' : IsWord 64 ((v - centre) * (v - centre)) := by
    unfold IsWord
    omega
  refine ⟨?_, hsquare⟩
  unfold squareInWords
  rw [word?_of_isWord hword, Option.bind_eq_bind, Option.bind_some, word?_of_isWord hword']

theorem heldRadius_lt (hsome : r.isEmpty = false) (radius : Int) :
    r.heldRadius radius < 2 ^ 30 := by
  have hwidth := width_eq hsome
  have hlimit := radiusLimit_eq hsome
  unfold heldRadius
  omega

/-- No number in the test for the inside leaves its word, whatever the rectangle is. -/
theorem roundedInWords_eq (hwords : r.InWords) (hsome : r.isEmpty = false) (radius x y : Int) :
    r.roundedInWords (r.heldRadius radius) x y = r.rounded (r.heldRadius radius) x y := by
  have hroom := hasRoom hsome radius
  have hshort := heldRadius_lt hsome radius
  rw [rounded_apply]
  unfold roundedInWords
  rw [centreInWords_eq hwords.x1 hwords.x2 hroom.nonneg hroom.columns,
    centreInWords_eq hwords.y1 hwords.y2 hroom.nonneg hroom.rows]
  cases hinside : r.contains x y with
  | false => rfl
  | true =>
    obtain ⟨hx, hy⟩ := contains_iff.mp hinside
    obtain ⟨cx, hcx, hdistance⟩ | ⟨hcx, -⟩ := cornerCentre?_spec hroom.columns x
    · obtain ⟨cy, hcy, hdistance'⟩ | ⟨hcy, -⟩ := cornerCentre?_spec hroom.rows y
      · have hacross' := hdistance.trans_le (overhang_le hx hroom.nonneg)
        have hdown' := hdistance'.trans_le (overhang_le hy hroom.nonneg)
        have hacross := squareInWords_eq hacross' hshort.le
        have hdown := squareInWords_eq hdown' hshort.le
        have hnonneg := mul_self_nonneg (x - cx)
        have hnonneg' := mul_self_nonneg (y - cy)
        have hsum : IsWord 64 ((x - cx) * (x - cx) + (y - cy) * (y - cy)) := by
          unfold IsWord
          omega
        have hradius : IsWord 64 (r.heldRadius radius * r.heldRadius radius) := by
          have hsquare := mul_le_mul hshort.le hshort.le hroom.nonneg (by decide)
          have hnonneg'' := mul_self_nonneg (r.heldRadius radius)
          unfold IsWord
          omega
        simp [hcx, hcy, hacross.1, hdown.1, word?_of_isWord hsum, word?_of_isWord hradius]
      · simp [hcx, hcy]
    · simp [hcx]

end Words

end Rect

end PanelSkin
