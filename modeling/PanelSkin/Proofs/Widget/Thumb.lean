import PanelSkin.Proofs.Expr.Execution
import PanelSkin.Proofs.Widget.Portion
import PanelSkin.Proofs.Widget.Redraw
import PanelSkin.Proofs.Widget.Strip

/-!
The thumb of a scroll bar. Its length and its start are rounded on their own, and yet it stays on
the track: what the thumb leaves of the extent is the room for its start. So it begins where the bar
begins and comes to rest at the end of the extent, which is the far side of the box unless the box
has more pixels than a word can count.
-/

namespace PanelSkin

namespace Direction

variable {d : Direction} {box : Rect}

/-- The middle of an extent, computed in words. -/
def middle? (start extent : Int) : Option Int := do
  word? 32 (start + (← quotient? 32 extent 2))

theorem middle?_eq {first last extent : Int} (hfirst : IsWord 32 first) (hlast : IsWord 32 last)
    (hsome : first ≤ last) (hextent : extent = min (last - first + 1) (2 ^ 31 - 1)) :
    middle? first extent = some (first + extent.tdiv 2) := by
  have hhalf : extent.tdiv 2 = extent / 2 := Int.tdiv_eq_ediv_of_nonneg (by omega)
  have hquotient : IsWord 32 (extent.tdiv 2) := by
    unfold IsWord
    omega
  have hmiddle : IsWord 32 (first + extent.tdiv 2) := by
    unfold IsWord at *
    omega
  unfold middle?
  rw [quotient?_of_isWord (by decide) hquotient]
  exact word?_of_isWord hmiddle

/-- The line along the middle of a box, computed in words. -/
def track? (d : Direction) (box : Rect) : Option Line :=
  if d.isVertical then do
    let x ← middle? box.x1 box.width
    return ⟨x, box.y1, x, box.y2⟩
  else do
    let y ← middle? box.y1 box.height
    return ⟨box.x1, y, box.x2, y⟩

theorem track?_eq (hwords : box.InWords) (hsome : box.isEmpty = false) :
    d.track? box = some (d.track box) := by
  obtain ⟨hcolumns, hrows⟩ := Rect.isEmpty_eq_false_iff.mp hsome
  unfold track? track
  split
  · rw [middle?_eq hwords.x1 hwords.x2 hcolumns (Rect.width_eq hsome)]
    rfl
  · rw [middle?_eq hwords.y1 hwords.y2 hrows (Rect.height_eq hsome)]
    rfl

end Direction

namespace Bar

section Thumb

variable {d : Direction} {box : Rect} {extent value value' total : Int}

theorem thumbLength_eq (hextent : 0 ≤ extent) :
    thumbLength extent total = max 1 (extent / (total + 1)) := by
  rw [thumbLength, Int.tdiv_eq_ediv_of_nonneg hextent]

theorem thumbLength_le (hextent : 1 ≤ extent) (total : Int) :
    thumbLength extent total ≤ extent := by
  have hquotient : extent / (total + 1) ≤ extent := Int.ediv_le_self _ (by omega)
  rw [thumbLength_eq (by omega)]
  omega

/-- The pixels before the thumb. -/
def thumbStart (extent value total : Int) : Int :=
  if total = 0 then 0 else portion (extent - thumbLength extent total) value total

theorem thumb_eq (d : Direction) (box : Rect) (value total : Int) :
    thumb d box value total = d.strip box (thumbStart (d.extentOf box) value (max 0 total))
      (thumbLength (d.extentOf box) (max 0 total)) := rfl

theorem thumbStart_bounds (hextent : 1 ≤ extent) (value : Int) (htotal : 0 ≤ total) :
    0 ≤ thumbStart extent value total ∧
      thumbStart extent value total + thumbLength extent total ≤ extent := by
  have hroom : thumbLength extent total ≤ extent := thumbLength_le hextent total
  unfold thumbStart
  split
  · omega
  · have hnonneg : 0 ≤ portion (extent - thumbLength extent total) value total :=
      portion_nonneg (by omega) (by omega)
    have hle : portion (extent - thumbLength extent total) value total ≤
        extent - thumbLength extent total := portion_le (by omega) (by omega)
    omega

theorem thumbStart_mono (hextent : 1 ≤ extent) (htotal : 0 ≤ total) (h : value ≤ value') :
    thumbStart extent value total ≤ thumbStart extent value' total := by
  have hroom : thumbLength extent total ≤ extent := thumbLength_le hextent total
  unfold thumbStart
  split
  · exact Int.le_refl 0
  · exact portion_mono (by omega) (by omega) h

theorem thumbStart_of_nonpos (h : value ≤ 0) : thumbStart extent value total = 0 := by
  unfold thumbStart
  split
  · rfl
  · exact portion_of_nonpos h

theorem thumbStart_of_le (htotal : 0 < total) (h : total ≤ value) :
    thumbStart extent value total + thumbLength extent total = extent := by
  unfold thumbStart
  rw [if_neg (by omega), portion_of_le htotal h]
  omega

theorem covers_thumb (hsome : box.isEmpty = false) :
    let extent := d.extentOf box
    let start := thumbStart extent value (max 0 total)
    d.Covers box start (start + thumbLength extent (max 0 total))
      (some (thumb d box value total)) := by
  intro extent start
  have hextent : extent = min (d.pixels box) (2 ^ 31 - 1) := Direction.extentOf_eq hsome
  have hextent' : 1 ≤ extent := Direction.one_le_extentOf hsome
  obtain ⟨hstart, hend⟩ := thumbStart_bounds hextent' value (Int.le_max_left 0 total)
  rw [thumb_eq]
  exact Direction.covers_strip hstart (by omega)

/-- The length of the thumb, computed in words. -/
def thumbLength? (extent total : Int) : Option Int := do
  word? 32 (max 1 (← quotient? 128 extent (← word? 128 (total + 1))))

theorem thumbLength?_eq (hextent : 1 ≤ extent) (hextent' : IsWord 32 extent) (htotal : 0 ≤ total)
    (htotal' : IsWord 64 total) :
    thumbLength? extent total = some (thumbLength extent total) := by
  have hle : thumbLength extent total ≤ extent := thumbLength_le hextent total
  have hnext : IsWord 128 (total + 1) := by
    unfold IsWord at *
    omega
  have hquotient : IsWord 128 (extent.tdiv (total + 1)) := by
    have hlower : 0 ≤ extent.tdiv (total + 1) := Int.tdiv_nonneg (by omega) (by omega)
    unfold thumbLength IsWord at *
    omega
  have hlength : IsWord 32 (thumbLength extent total) := by
    have hone : 1 ≤ thumbLength extent total := Int.le_max_left _ _
    unfold IsWord at *
    omega
  unfold thumbLength?
  rw [word?_of_isWord hnext]
  dsimp only [Option.bind_eq_bind, Option.bind_some]
  rw [quotient?_of_isWord (by omega) hquotient]
  exact word?_of_isWord hlength

/-- The pixels before a thumb of some length, computed in words. -/
def thumbStart? (extent length value total : Int) : Option Int :=
  if total = 0 then some 0 else do portion? (← word? 32 (extent - length)) value total

theorem thumbStart?_eq (hextent : 1 ≤ extent) (hextent' : IsWord 32 extent) (htotal : 0 ≤ total)
    (htotal' : IsWord 64 total) :
    thumbStart? extent (thumbLength extent total) value total =
      some (thumbStart extent value total) := by
  have hle : thumbLength extent total ≤ extent := thumbLength_le hextent total
  have hroom : IsWord 32 (extent - thumbLength extent total) := by
    have hone : 1 ≤ thumbLength extent total := Int.le_max_left _ _
    unfold IsWord at *
    omega
  unfold thumbStart? thumbStart
  split
  · rfl
  · rw [word?_of_isWord hroom]
    exact portion?_eq (by omega) hroom (by omega) htotal'

/-- The thumb, computed in words. -/
def thumb? (d : Direction) (box : Rect) (value total : Int) : Option Rect := do
  let total := max 0 total
  let extent := d.extentOf box
  let length ← thumbLength? extent total
  d.strip? box (← thumbStart? extent length value total) length

theorem thumb?_eq (hwords : box.InWords) (hsome : box.isEmpty = false) (htotal : IsWord 64 total) :
    thumb? d box value total = some (thumb d box value total) := by
  have hextent : 1 ≤ d.extentOf box := Direction.one_le_extentOf hsome
  have hextent' : IsWord 32 (d.extentOf box) := Direction.extentOf_isWord hsome
  have hheld : 0 ≤ max 0 total := Int.le_max_left 0 total
  have hheld' : IsWord 64 (max 0 total) := by
    unfold IsWord at *
    omega
  obtain ⟨hstart, hend⟩ := thumbStart_bounds hextent value hheld
  unfold thumb?
  dsimp only
  rw [thumbLength?_eq hextent hextent' hheld hheld']
  dsimp only [Option.bind_eq_bind, Option.bind_some]
  rw [thumbStart?_eq hextent hextent' hheld hheld']
  exact Direction.strip?_eq hwords hsome hstart (Int.le_max_left _ _) hend

end Thumb

variable {m : Type → Type} [Monad m] {σ : Type} {E : Execution m σ}

theorem run_drawScrollbar {lookups : Lookups m} {b : Bar} {look : Look} {st st₁ st₂ : σ}
    {total current : Int64} (hsome : look.box.isEmpty = false)
    (htotal : E.run (b.total.evaluateNumber lookups) st = some (total, st₁))
    (hcurrent : E.run (b.current.evaluateNumber lookups) st₁ = some (current, st₂)) :
    E.run (b.drawScrollbar lookups look) st = some (look.backdrop ++
      [.line (b.direction.track look.box) look.color,
        .rectangle (thumb b.direction look.box current.toInt total.toInt) look.color true],
      st₂) := by
  have hextent : 1 ≤ b.direction.extentOf look.box := Direction.one_le_extentOf hsome
  unfold drawScrollbar
  rw [if_neg (by omega), E.run_bind_of_run htotal]
  dsimp only
  rw [E.run_bind_of_run hcurrent, E.run_pure]

/-- The thumb of a scroll bar is the shorter the larger the total, but one pixel at least. It moves
with the value from the beginning of the extent to its end, and never back; it lies in the box from
one side to the other. The end of the extent is the far side of the box, unless the box has more
pixels than a word can count. All of it can be computed in words of 32 bits, with some of 128 bits
on the way. -/
theorem thumb_moves_along_track {lookups : Lookups m} {b : Bar} {look : Look} {st st₁ st₂ : σ}
    {total current : Int64} (hwords : look.box.InWords) (hsome : look.box.isEmpty = false)
    (htotal : E.run (b.total.evaluateNumber lookups) st = some (total, st₁))
    (hcurrent : E.run (b.current.evaluateNumber lookups) st₁ = some (current, st₂)) :
    let d := b.direction
    let box := look.box
    let extent := d.extentOf box
    let whole := max 0 total.toInt
    let length := max 1 (extent / (whole + 1))
    let start := fun value : Int64 => thumbStart extent value.toInt whole
    E.run (b.drawScrollbar lookups look) st = some (look.backdrop ++
        [.line (d.track box) look.color,
          .rectangle (thumb d box current.toInt total.toInt) look.color true], st₂) ∧
      extent = min (d.pixels box) (2 ^ 31 - 1) ∧ d.track? box = some (d.track box) ∧
      (∀ value : Int64,
        d.Covers box (start value) (start value + length)
            (some (thumb d box value.toInt total.toInt)) ∧
          0 ≤ start value ∧ start value + length ≤ extent ∧
          (value.toInt ≤ 0 → start value = 0) ∧
          (0 < whole → whole ≤ value.toInt → start value + length = extent) ∧
          thumb? d box value.toInt total.toInt = some (thumb d box value.toInt total.toInt)) ∧
      (∀ value value' : Int64, value.toInt ≤ value'.toInt → start value ≤ start value') ∧
      (d.pixels box < 2 ^ 31 → extent = d.pixels box) := by
  intro d box extent whole length start
  have hextent : 1 ≤ extent := Direction.one_le_extentOf hsome
  have hpixels : extent = min (d.pixels box) (2 ^ 31 - 1) := Direction.extentOf_eq hsome
  have hwhole : 0 ≤ whole := Int.le_max_left 0 _
  have hlength : length = thumbLength extent whole := (thumbLength_eq (by omega)).symm
  refine ⟨run_drawScrollbar hsome htotal hcurrent, hpixels, Direction.track?_eq hwords hsome,
    ?_, ?_, ?_⟩
  · intro value
    obtain ⟨hstart, hend⟩ := thumbStart_bounds hextent value.toInt hwhole
    rw [hlength]
    exact ⟨covers_thumb hsome, hstart, hend, thumbStart_of_nonpos, thumbStart_of_le,
      thumb?_eq hwords hsome (Int64.isWord total)⟩
  · intro value value' hle
    exact thumbStart_mono hextent hwhole hle
  · intro hcounted
    omega

/-- At the last of two positions the thumb takes the upper half of a box of ten lines. -/
theorem thumb_moves_along_track_of_two :
    let E := Execution.immediate
    let lookups := (Widget.playing 1).toLookups
    let volume : Expr := .text ⟨[.token { name := "volume", id := 1 }]⟩
    let b : Bar := { direction := .bottomToTop, current := volume, total := .number 1 }
    let look : Look := ⟨⟨0, 0, 2, 9⟩, .black, .transparent⟩
    look.box.InWords ∧ look.box.isEmpty = false ∧
      E.run (b.total.evaluateNumber lookups) () = some (1, ()) ∧
      E.run (b.current.evaluateNumber lookups) () = some (1, ()) ∧
      E.run (b.drawScrollbar lookups look) () =
        some ([.line ⟨1, 0, 1, 9⟩ .black, .rectangle ⟨0, 0, 2, 4⟩ .black true], ()) := by
  intro E lookups volume b look
  have hwords : look.box.InWords := ⟨by decide, by decide, by decide, by decide⟩
  have hsome : look.box.isEmpty = false := by decide
  have htotal : E.run (b.total.evaluateNumber lookups) () = some (1, ()) := rfl
  have hcurrent : E.run (b.current.evaluateNumber lookups) () = some (1, ()) := rfl
  refine ⟨hwords, hsome, htotal, hcurrent, ?_⟩
  exact (thumb_moves_along_track hwords hsome htotal hcurrent).1

/-- In a box of 2^32 - 14 columns the thumb stops halfway, at the last column that a word can
count. -/
theorem thumb_stops_before_far_side :
    let E := Execution.immediate
    let lookups := (Widget.playing 1).toLookups
    let most : Int64 := 9223372036854775807
    let b : Bar := { current := .number most, total := .number most }
    let look : Look := ⟨⟨-2147483639, 0, 2147483646, 1⟩, .black, .transparent⟩
    let stopped := thumb b.direction look.box most.toInt most.toInt
    look.box.InWords ∧ look.box.isEmpty = false ∧ 0 < most.toInt ∧
      E.run (b.drawScrollbar lookups look) () = some ([.line ⟨-2147483639, 1, 2147483646, 1⟩ .black,
        .rectangle stopped .black true], ()) ∧
      stopped = ⟨7, 0, 7, 1⟩ ∧ stopped.x2 < look.box.x2 := by
  intro E lookups most b look stopped
  have hwords : look.box.InWords := ⟨by decide, by decide, by decide, by decide⟩
  have hsome : look.box.isEmpty = false := by decide
  exact ⟨hwords, hsome, by decide, run_drawScrollbar hsome rfl rfl, by decide, by decide⟩

end Bar

end PanelSkin
