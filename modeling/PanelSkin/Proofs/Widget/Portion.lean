import PanelSkin.Proofs.Graphics.Word
import PanelSkin.Widget.Bar

/-!
Portions of an extent. A bar is as long as its value is of its total, rounded down to pixels. The
portion is nothing below one pixel and is the whole extent only when the total is reached, and it
never shrinks when the value grows.
-/

namespace PanelSkin

namespace Bar

variable {extent value value' total : Int}

theorem portion_eq (hextent : 0 ≤ extent) :
    portion extent value total = extent * max 0 (min value total) / total := by
  have hheld : 0 ≤ max 0 (min value total) := Int.le_max_left 0 _
  rw [portion, Int.tdiv_eq_ediv_of_nonneg (Int.mul_nonneg hextent hheld)]

theorem portion_nonneg (hextent : 0 ≤ extent) (htotal : 0 < total) :
    0 ≤ portion extent value total := by
  have hheld : 0 ≤ max 0 (min value total) := Int.le_max_left 0 _
  rw [portion_eq hextent]
  exact Int.ediv_nonneg (Int.mul_nonneg hextent hheld) (Int.le_of_lt htotal)

theorem portion_mono (hextent : 0 ≤ extent) (htotal : 0 < total) (h : value ≤ value') :
    portion extent value total ≤ portion extent value' total := by
  have hheld : max 0 (min value total) ≤ max 0 (min value' total) := by omega
  rw [portion_eq hextent, portion_eq hextent]
  exact Int.ediv_le_ediv htotal (Int.mul_le_mul_of_nonneg_left hheld hextent)

theorem portion_of_le (htotal : 0 < total) (h : total ≤ value) :
    portion extent value total = extent := by
  have hheld : max 0 (min value total) = total := by omega
  rw [portion, hheld, Int.mul_tdiv_cancel _ (by omega)]

theorem portion_of_nonpos (h : value ≤ 0) : portion extent value total = 0 := by
  have hheld : max 0 (min value total) = 0 := by omega
  rw [portion, hheld, Int.mul_zero, Int.zero_tdiv]

theorem portion_le (hextent : 0 ≤ extent) (htotal : 0 < total) :
    portion extent value total ≤ extent :=
  calc portion extent value total
      ≤ portion extent (max value total) total := portion_mono hextent htotal (Int.le_max_left _ _)
    _ = extent := portion_of_le htotal (Int.le_max_right _ _)

theorem portion_eq_extent_iff (hextent : 0 < extent) (htotal : 0 < total) :
    portion extent value total = extent ↔ total ≤ value := by
  refine ⟨fun hwhole => ?_, portion_of_le htotal⟩
  rw [portion_eq (by omega)] at hwhole
  have hfits : extent * total ≤ extent * max 0 (min value total) :=
    (Int.le_ediv_iff_mul_le htotal).mp (Int.le_of_eq hwhole.symm)
  have hheld : total ≤ max 0 (min value total) := Int.le_of_mul_le_mul_left hfits hextent
  omega

theorem portion_eq_zero_iff (hextent : 0 < extent) (htotal : 0 < total) :
    portion extent value total = 0 ↔ extent * max 0 value < total := by
  have hpixel : 1 ≤ portion extent value total ↔ total ≤ extent * max 0 (min value total) := by
    rw [portion_eq (by omega), Int.le_ediv_iff_mul_le htotal, Int.one_mul]
  have hnonneg : 0 ≤ portion extent value total := portion_nonneg (by omega) htotal
  by_cases hover : total ≤ value
  · have hwhole : portion extent value total = extent := portion_of_le htotal hover
    have hmore : 1 * total ≤ extent * max 0 value :=
      Int.mul_le_mul (by omega) (by omega) (by omega) (by omega)
    omega
  · have hheld : max 0 (min value total) = max 0 value := by omega
    rw [hheld] at hpixel
    omega

/-- The portion of an extent, computed in words. -/
def portion? (extent value total : Int) : Option Int := do
  let product ← word? 128 (extent * max 0 (min value total))
  word? 32 (← quotient? 128 product total)

theorem portion?_eq (hextent : 0 ≤ extent) (hextent' : IsWord 32 extent) (htotal : 0 < total)
    (htotal' : IsWord 64 total) :
    portion? extent value total = some (portion extent value total) := by
  have hheld : 0 ≤ max 0 (min value total) := Int.le_max_left 0 _
  have hproduct : IsWord 128 (extent * max 0 (min value total)) := by
    have hlower : 0 ≤ extent * max 0 (min value total) := Int.mul_nonneg hextent hheld
    have hupper : extent * max 0 (min value total) ≤ 2 ^ 31 * 2 ^ 63 :=
      Int.mul_le_mul (Int.le_of_lt hextent'.2) (by have := htotal'.2; omega) hheld (by decide)
    unfold IsWord
    omega
  have hnonneg : 0 ≤ portion extent value total := portion_nonneg hextent htotal
  have hle : portion extent value total ≤ extent := portion_le hextent htotal
  have hportion : IsWord 32 (portion extent value total) := by
    unfold IsWord at *
    omega
  have hquotient : IsWord 128 (portion extent value total) := by
    unfold IsWord at *
    omega
  unfold portion?
  rw [word?_of_isWord hproduct]
  dsimp only [Option.bind_eq_bind, Option.bind_some]
  rw [quotient?_of_isWord (by omega) hquotient]
  exact word?_of_isWord hportion

end Bar

end PanelSkin
