import PanelSkin.Proofs.Expr.Execution
import PanelSkin.Proofs.Widget.Portion
import PanelSkin.Proofs.Widget.Redraw
import PanelSkin.Proofs.Widget.Strip

/-!
What a progress bar fills. It is the strip at the side from which the bar grows that is as long as
the portion of its value; a peak is marked with the last line of what would be filled for it. None
of this leaves the box, and no number on the way to it leaves its word.
-/

namespace PanelSkin

namespace Bar

section Filled

variable {d : Direction} {box : Rect} {value total : Int}

theorem portion_extentOf (d : Direction) (value : Int) (hsome : box.isEmpty = false)
    (htotal : 0 < total) :
    1 ≤ d.extentOf box ∧ 0 ≤ portion (d.extentOf box) value total ∧
      portion (d.extentOf box) value total ≤ d.extentOf box := by
  have hextent : 1 ≤ d.extentOf box := Direction.one_le_extentOf hsome
  exact ⟨hextent, portion_nonneg (by omega) htotal, portion_le (by omega) htotal⟩

theorem covers_filled (hsome : box.isEmpty = false) (htotal : 0 < total) :
    let length := portion (d.extentOf box) value total
    d.Covers box 0 length (filled d box value total) := by
  intro length
  obtain ⟨-, -, hle⟩ := portion_extentOf d value hsome htotal
  have hpixels : d.extentOf box = min (d.pixels box) (2 ^ 31 - 1) := Direction.extentOf_eq hsome
  change d.Covers box 0 length (if 0 < length then some (d.strip box 0 length) else none)
  split
  · have hstrip : d.Covers box 0 (0 + length) (some (d.strip box 0 length)) :=
      Direction.covers_strip (Int.le_refl 0) (by omega)
    rwa [Int.zero_add] at hstrip
  · exact Direction.covers_none (by omega)

theorem covers_marker (hsome : box.isEmpty = false) (htotal : 0 < total) :
    let length := portion (d.extentOf box) value total
    d.Covers box (length - 1) length (marker d box value total) := by
  intro length
  obtain ⟨-, -, hle⟩ := portion_extentOf d value hsome htotal
  have hpixels : d.extentOf box = min (d.pixels box) (2 ^ 31 - 1) := Direction.extentOf_eq hsome
  change d.Covers box (length - 1) length
    (if 0 < length then some (d.strip box (length - 1) 1) else none)
  split
  · have hstrip : d.Covers box (length - 1) (length - 1 + 1) (some (d.strip box (length - 1) 1)) :=
      Direction.covers_strip (by omega) (by omega)
    rwa [Int.sub_add_cancel] at hstrip
  · exact Direction.covers_none (by omega)

theorem filled_opposite (d : Direction) (box : Rect) (value total : Int) :
    filled d.opposite box value total = (filled d box value total).map (d.mirrored box) := by
  unfold filled
  rw [Direction.extentOf_opposite]
  dsimp only
  split
  · rw [Direction.strip_opposite]
    rfl
  · rfl

theorem filled_eq_none_iff (hsome : box.isEmpty = false) (htotal : 0 < total) :
    filled d box value total = none ↔ d.extentOf box * max 0 value < total := by
  obtain ⟨hextent, hnonneg, -⟩ := portion_extentOf d value hsome htotal
  rw [← portion_eq_zero_iff (by omega) htotal]
  unfold filled
  dsimp only
  split
  · simp only [reduceCtorEq, false_iff]
    omega
  · simp only [true_iff]
    omega

/-- The strip that is filled for a value, computed in words. -/
def filled? (d : Direction) (box : Rect) (value total : Int) : Option (Option Rect) := do
  let length ← portion? (d.extentOf box) value total
  if 0 < length then return some (← d.strip? box 0 length) else return none

theorem filled?_eq (hwords : box.InWords) (hsome : box.isEmpty = false) (htotal : 0 < total)
    (htotal' : IsWord 64 total) :
    filled? d box value total = some (filled d box value total) := by
  obtain ⟨hextent, -, hle⟩ := portion_extentOf d value hsome htotal
  unfold filled? filled
  rw [portion?_eq (by omega) (Direction.extentOf_isWord hsome) htotal htotal']
  dsimp only [Option.bind_eq_bind, Option.bind_some]
  split
  · rw [Direction.strip?_eq hwords hsome (Int.le_refl 0) (by omega) (by omega)]
    rfl
  · rfl

/-- The strip that marks a value, computed in words. -/
def marker? (d : Direction) (box : Rect) (value total : Int) : Option (Option Rect) := do
  let length ← portion? (d.extentOf box) value total
  if 0 < length then return some (← d.strip? box (← word? 32 (length - 1)) 1) else return none

theorem marker?_eq (hwords : box.InWords) (hsome : box.isEmpty = false) (htotal : 0 < total)
    (htotal' : IsWord 64 total) :
    marker? d box value total = some (marker d box value total) := by
  obtain ⟨hextent, -, hle⟩ := portion_extentOf d value hsome htotal
  have hextent' : IsWord 32 (d.extentOf box) := Direction.extentOf_isWord hsome
  unfold marker? marker
  rw [portion?_eq (by omega) hextent' htotal htotal']
  dsimp only [Option.bind_eq_bind, Option.bind_some]
  split
  · have hlast : IsWord 32 (portion (d.extentOf box) value total - 1) := by
      unfold IsWord at *
      omega
    rw [word?_of_isWord hlast]
    dsimp only [Option.bind_some]
    rw [Direction.strip?_eq hwords hsome (by omega) (Int.le_refl 1) (by omega)]
    rfl
  · rfl

end Filled

variable {m : Type → Type} [Monad m] {σ : Type} {E : Execution m σ}

/-- The value that a progress bar marks, if it marks one. -/
def evaluatePeak (lookups : Lookups m) (b : Bar) : m (Option Int64) :=
  match b.peak with
  | none => pure none
  | some peak => do return some (← peak.evaluateNumber lookups)

theorem run_drawProgress {lookups : Lookups m} {b : Bar} {look : Look} {st st₁ st₂ st₃ : σ}
    {total current : Int64} {peak : Option Int64}
    (htotal : E.run (b.total.evaluateNumber lookups) st = some (total, st₁))
    (hcurrent : E.run (b.current.evaluateNumber lookups) st₁ = some (current, st₂))
    (hpeak : E.run (b.evaluatePeak lookups) st₂ = some (peak, st₃)) (hpositive : 0 < total.toInt) :
    E.run (b.drawProgress lookups look) st = some (look.backdrop ++
      painted look.color (filled b.direction look.box current.toInt total.toInt) ++
      painted look.color (peak.bind (marker b.direction look.box ·.toInt total.toInt)), st₃) := by
  unfold drawProgress
  rw [E.run_bind_of_run htotal]
  dsimp only
  rw [if_neg (Int.not_le.mpr hpositive), E.run_bind_of_run hcurrent]
  unfold evaluatePeak at hpeak
  cases hmarked : b.peak with
  | none =>
      rw [hmarked, E.run_pure_eq_some] at hpeak
      obtain ⟨rfl, rfl⟩ := hpeak
      dsimp only
      rw [E.run_pure]
      simp [painted]
  | some e =>
      rw [hmarked, E.run_bind_eq_some] at hpeak
      obtain ⟨n, st', hn, hreturned⟩ := hpeak
      rw [E.run_pure_eq_some] at hreturned
      obtain ⟨rfl, rfl⟩ := hreturned
      dsimp only
      rw [E.run_bind_of_run hn, E.run_pure]
      rfl

/-- A progress bar fills the lines nearest to the side from which it grows: as many as the portion
of its value, rounded down, out of all that its extent has. A peak is marked at the last line that
would be filled for it. Values below zero and above the total count as these. All of it can be
computed in words of 32 bits, with one of 128 bits for the product. -/
theorem progress_fills_portion {lookups : Lookups m} {b : Bar} {look : Look} {st st₁ st₂ st₃ : σ}
    {total current : Int64} {peak : Option Int64} (hwords : look.box.InWords)
    (hsome : look.box.isEmpty = false)
    (htotal : E.run (b.total.evaluateNumber lookups) st = some (total, st₁))
    (hcurrent : E.run (b.current.evaluateNumber lookups) st₁ = some (current, st₂))
    (hpeak : E.run (b.evaluatePeak lookups) st₂ = some (peak, st₃)) (hpositive : 0 < total.toInt) :
    let d := b.direction
    let box := look.box
    let extent := d.extentOf box
    let whole := total.toInt
    let lengthOf := fun value : Int64 => extent * max 0 (min value.toInt whole) / whole
    E.run (b.drawProgress lookups look) st = some (look.backdrop ++
        painted look.color (filled d box current.toInt whole) ++
        painted look.color (peak.bind (marker d box ·.toInt whole)), st₃) ∧
      extent = min (d.pixels box) (2 ^ 31 - 1) ∧
      (∀ value : Int64,
        let fill := filled d box value.toInt whole
        let mark := marker d box value.toInt whole
        d.Covers box 0 (lengthOf value) fill ∧ 0 ≤ lengthOf value ∧ lengthOf value ≤ extent ∧
          filled d.opposite box value.toInt whole = fill.map (d.mirrored box) ∧
          (lengthOf value = extent ↔ whole ≤ value.toInt) ∧
          (fill = none ↔ extent * max 0 value.toInt < whole) ∧
          d.Covers box (lengthOf value - 1) (lengthOf value) mark ∧
          filled? d box value.toInt whole = some fill ∧
          marker? d box value.toInt whole = some mark) ∧
      ∀ value value' : Int64, value.toInt ≤ value'.toInt → lengthOf value ≤ lengthOf value' := by
  intro d box extent whole lengthOf
  have hextent : 1 ≤ extent := Direction.one_le_extentOf hsome
  have hlength (value : Int64) : lengthOf value = portion extent value.toInt whole :=
    (portion_eq (by omega)).symm
  have hwhole : IsWord 64 whole := Int64.isWord total
  refine ⟨run_drawProgress htotal hcurrent hpeak hpositive, Direction.extentOf_eq hsome, ?_, ?_⟩
  · intro value fill mark
    rw [hlength]
    exact ⟨covers_filled hsome hpositive, portion_nonneg (by omega) hpositive,
      portion_le (by omega) hpositive, filled_opposite d box _ whole,
      portion_eq_extent_iff (by omega) hpositive, filled_eq_none_iff hsome hpositive,
      covers_marker hsome hpositive, filled?_eq hwords hsome hpositive hwhole,
      marker?_eq hwords hsome hpositive hwhole⟩
  · intro value value' hle
    rw [hlength, hlength]
    exact portion_mono (by omega) hpositive hle

/-- A bar of ten columns shows a volume of two, and grows to the left: two columns are filled, and
the sixth is marked. -/
theorem progress_fills_portion_of_ten :
    let E := Execution.immediate
    let lookups := (Widget.playing 2).toLookups
    let volume : Expr := .text ⟨[.token { name := "volume", id := 1 }]⟩
    let b : Bar :=
      { direction := .rightToLeft
        current := volume
        total := .number 10
        peak := some (.number 6) }
    let look : Look := ⟨⟨0, 0, 9, 1⟩, .black, .transparent⟩
    look.box.InWords ∧ look.box.isEmpty = false ∧
      E.run (b.total.evaluateNumber lookups) () = some (10, ()) ∧
      E.run (b.current.evaluateNumber lookups) () = some (2, ()) ∧
      E.run (b.evaluatePeak lookups) () = some (some 6, ()) ∧ 0 < (10 : Int64).toInt ∧
      E.run (b.drawProgress lookups look) () =
        some ([.rectangle ⟨8, 0, 9, 1⟩ .black true, .rectangle ⟨4, 0, 4, 1⟩ .black true], ()) := by
  intro E lookups volume b look
  have hwords : look.box.InWords := ⟨by decide, by decide, by decide, by decide⟩
  have hsome : look.box.isEmpty = false := by decide
  have htotal : E.run (b.total.evaluateNumber lookups) () = some (10, ()) := rfl
  have hcurrent : E.run (b.current.evaluateNumber lookups) () = some (2, ()) := rfl
  have hpeak : E.run (b.evaluatePeak lookups) () = some (some 6, ()) := rfl
  have hpositive : 0 < (10 : Int64).toInt := by decide
  refine ⟨hwords, hsome, htotal, hcurrent, hpeak, hpositive, ?_⟩
  exact (progress_fills_portion hwords hsome htotal hcurrent hpeak hpositive).1

end Bar

end PanelSkin
