import PanelSkin.Proofs.Graphics.TextRun
import PanelSkin.Proofs.Widget.Scrolling

/-!
The two copies of a text that scrolls. While it passes by, it is drawn with the separator and a
second copy behind it, and each copy paints what the text alone would paint at its place. Its
offset comes round after a cycle. That is where the second copy starts, but for the tabs: they are
measured as tabs and drawn as spaces.
-/

namespace PanelSkin

namespace TextBox

/-- How far the pen moves from the start of a scrolling text to the start of its second copy. -/
def copyDistance (face : Face) (content separator : String) : Int :=
  face.widthOf (flat content ++ separator.toList)

/-- In the drawn text every tab has become a space. -/
theorem widthOf_flat (face : Face) (content : String) :
    face.widthOf (flat content) = face.textWidth content +
      content.toList.count '\t' * (face.charWidth ' ' - face.charWidth '\t') := by
  unfold flat Face.textWidth
  induction content.toList with
  | nil => simp [Face.widthOf]
  | cons c rest ih =>
      change face.charWidth (if c = '\t' then ' ' else c) + face.widthOf _ =
        face.charWidth c + face.widthOf rest + _
      rw [ih]
      by_cases htab : c = '\t'
      · subst htab
        rw [if_pos rfl, List.count_cons_self, Int.natCast_succ, Int.add_mul, Int.one_mul]
        omega
      · rw [if_neg htab, List.count_cons_of_ne htab]
        omega

theorem copyDistance_eq (face : Face) (content separator : String) :
    copyDistance face content separator = cycle face content separator +
      content.toList.count '\t' * (face.charWidth ' ' - face.charWidth '\t') := by
  rw [copyDistance, Face.widthOf_append, widthOf_flat, cycle, Face.textWidth, Face.textWidth]
  omega

/-- The second copy starts one cycle behind the first one if there are no tabs, or tabs are as wide
as spaces. -/
theorem copyDistance_eq_cycle_iff (face : Face) (content separator : String) :
    copyDistance face content separator = cycle face content separator ↔
      ('\t' ∈ content.toList → face.charWidth '\t' = face.charWidth ' ') := by
  rw [copyDistance_eq, add_eq_left, Int.mul_eq_zero, Int.natCast_eq_zero, List.count_eq_zero,
    Int.sub_eq_zero, eq_comm (a := face.charWidth ' '), ← imp_iff_not_or]

/-- What a text draws that scrolls: one run, as far on as it has come. -/
theorem drawAt_of_scrolls {t : TextBox} {s : Showing Id Look} (hscrolls : t.scrolls s = true)
    {face : Face} (hface : s.surroundings.font t.font = some face) :
    (t.drawAt s).2 = s.place.backdrop ++
      [.text (scrollRun (setting s.surroundings s.place face) (t.drawAt s).1.state
        (t.valign.topIn s.place.box face.totalHeight) (t.content s.surroundings)
        s.surroundings.separator)] := by
  simp only [scrolls, hface, Bool.and_eq_true, Bool.not_eq_true'] at hscrolls
  obtain ⟨hline, hmust⟩ := hscrolls
  unfold drawAt
  rw [draw_of_there _ _ hface]
  simp only [compose, hline, setting, hmust, if_true]
  rfl

section Run

variable {run : TextRun} {content separator : String}

/-- The looped text paints what the text paints, the separator, and the text once more. -/
theorem dots_looped (hadvance : ∀ c, 0 ≤ run.face.charWidth c) (offset : Int) :
    (run.ofText (looped content separator) offset).dots =
      (run.ofText (flat content) offset).dots ++
        (run.ofText separator.toList (offset - run.face.widthOf (flat content))).dots ++
        (run.ofText (flat content) (offset - copyDistance run.face content separator)).dots := by
  rw [looped, TextRun.dots_ofText_append hadvance, TextRun.dots_ofText_append hadvance]
  rfl

/-- Past the distance nothing is left of the first copy and of the separator. -/
theorem dots_looped_of_passed (hadvance : ∀ c, 0 ≤ run.face.charWidth c) {offset : Int}
    (h : copyDistance run.face content separator ≤ offset) :
    (run.ofText (looped content separator) offset).dots =
      (run.ofText (flat content) (offset - copyDistance run.face content separator)).dots := by
  have hdistance : copyDistance run.face content separator =
      run.face.widthOf (flat content) + run.face.widthOf separator.toList :=
    run.face.widthOf_append _ _
  have hseparator := Face.widthOf_nonneg hadvance separator.toList
  rw [dots_looped hadvance, TextRun.dots_ofText_of_passed hadvance (by omega),
    TextRun.dots_ofText_of_passed hadvance (by omega), List.append_nil, List.nil_append]

/-- While the first copy fills the columns of the run, nothing else is to be seen. -/
theorem dots_looped_of_filled (hadvance : ∀ c, 0 ≤ run.face.charWidth c) {offset : Int}
    (h : offset + (run.maxX - run.x) < run.face.widthOf (flat content)) :
    (run.ofText (looped content separator) offset).dots = (run.ofText (flat content) offset).dots := by
  have hdistance : copyDistance run.face content separator =
      run.face.widthOf (flat content) + run.face.widthOf separator.toList :=
    run.face.widthOf_append _ _
  have hseparator := Face.widthOf_nonneg hadvance separator.toList
  have hbetween : (run.ofText separator.toList
      (offset - run.face.widthOf (flat content))).dots = [] :=
    TextRun.dots_ofText_of_beyond (by omega) _
  have hsecond : (run.ofText (flat content)
      (offset - copyDistance run.face content separator)).dots = [] :=
    TextRun.dots_ofText_of_beyond (by omega) _
  rw [dots_looped hadvance, hbetween, hsecond, List.append_nil, List.append_nil]

end Run

variable {σ : Type} {valid : Cells → σ → Prop}

/-- While a text passes by, a run of it paints the text at its offset, the separator behind it, and
the text again at its distance. That distance is the cycle, after which the offset comes round, and
for every tab the difference between a space and a tab. Past the distance the second copy is all
there is, and it is what the first one is at an offset that lies the distance back. -/
theorem copies_while_scrolling {t : TextBox} (o : Occasion valid Look) {face : Face}
    (hface : o.world.font t.font = some face) (hadvance : ∀ c, 0 ≤ face.charWidth c)
    (hscrolls : t.scrolls o.inWorld = true) :
    let drawn := t.drawAt o.inWorld
    let content := t.content o.world
    let separator := o.world.separator
    let distance := copyDistance face content separator
    (steadily valid).rel drawn (t.drawAt o.inRun) ∧
      distance = cycle face content separator +
        content.toList.count '\t' * (face.charWidth ' ' - face.charWidth '\t') ∧
      (distance = cycle face content separator ↔
        ('\t' ∈ content.toList → face.charWidth '\t' = face.charWidth ' ')) ∧
      (drawn.1.state.loopReached = false → ∃ run : TextRun,
        drawn.2 = o.place.backdrop ++
          [.text (run.ofText (looped content separator) drawn.1.state.offset)] ∧
        ∀ offset : Int,
          let whole := fun skip => (run.ofText (looped content separator) skip).dots
          let copy := fun skip => (run.ofText (flat content) skip).dots
          whole offset = copy offset ++
              (run.ofText separator.toList (offset - face.widthOf (flat content))).dots ++
              copy (offset - distance) ∧
            (distance ≤ offset → whole offset = copy (offset - distance) ∧
              (offset - distance + (o.place.box.x2 - o.place.box.x1) < face.widthOf (flat content) →
                whole (offset - distance) = whole offset))) := by
  intro drawn content separator distance
  refine ⟨o.text_related t, copyDistance_eq _ _ _, copyDistance_eq_cycle_iff _ _ _, ?_⟩
  intro hpasses
  have hcalls := drawAt_of_scrolls hscrolls hface
  rw [scrollRun, if_neg (ne_true_of_eq_false hpasses)] at hcalls
  refine ⟨_, hcalls, ?_⟩
  intro offset whole copy
  refine ⟨dots_looped hadvance offset, fun hpassed => ?_⟩
  have hsecond : whole offset = copy (offset - distance) := dots_looped_of_passed hadvance hpassed
  exact ⟨hsecond, fun hfills => (dots_looped_of_filled hadvance hfills).trans hsecond.symm⟩

/-- A font in which a tab takes no room. A blank shows nothing, and all else is a dot. -/
def dotted : Face where
  totalWidth := 6
  totalHeight := 1
  totalAscent := 1
  spaceBetween := 0
  lineHeight := 1
  charWidth c := if c = '\t' then 0 else 6
  glyph c := if c = ' ' then none else
    some { width := 1, height := 1, bearingY := 1, coverage := #[255] }

/-- A box of twelve pixels, at some time, where that font is there. -/
def ticker (now : Nat) : Occasion (fun _ (_ : Unit) => True) Look :=
  .fixed { Widget.gallery with font := fun _ => some dotted } ⟨⟨0, 0, 11, 0⟩, .black, .white⟩ now

theorem dotted_advance (c : Char) : 0 ≤ dotted.charWidth c := by
  change (0 : Int) ≤ if c = '\t' then 0 else 6
  split
  · decide
  · decide

/-- Five characters, one of them a tab, and a separator of 30 pixels. The copies are 60 pixels apart,
and at 60 the second one is where the first one was at the start. -/
theorem copies_while_scrolling_tab :
    let t := banner "a\tbab" 54
    let drawn := t.drawAt (ticker 0).inWorld
    (ticker 0).world.font t.font = some dotted ∧ (∀ c, 0 ≤ dotted.charWidth c) ∧
      t.scrolls (ticker 0).inWorld = true ∧ drawn.1.state.loopReached = false ∧
      copyDistance dotted "a\tbab" defaultSeparator = 60 ∧
      ∃ run : TextRun, drawn.2 = (ticker 0).place.backdrop ++
          [.text (run.ofText (looped "a\tbab" defaultSeparator) drawn.1.state.offset)] ∧
        (run.ofText (looped "a\tbab" defaultSeparator) 60).dots =
          (run.ofText (flat "a\tbab") 0).dots := by
  intro t drawn
  have hface : (ticker 0).world.font t.font = some dotted := rfl
  have hscrolls : t.scrolls (ticker 0).inWorld = true := by decide +kernel
  have hpasses : drawn.1.state.loopReached = false := by decide +kernel
  have hdistance : copyDistance dotted "a\tbab" defaultSeparator = 60 := by decide +kernel
  obtain ⟨-, -, -, hcopies⟩ := copies_while_scrolling (ticker 0) hface dotted_advance hscrolls
  obtain ⟨run, hcalls, hdots⟩ := hcopies hpasses
  refine ⟨hface, dotted_advance, hscrolls, hpasses, hdistance, run, hcalls, ?_⟩
  have hstart : 60 - copyDistance dotted "a\tbab" defaultSeparator = 0 :=
    Int.sub_eq_zero.mpr hdistance.symm
  exact ((hdots 60).2 (Int.le_of_eq hdistance)).1.trans
    (congrArg (fun skip => (run.ofText (flat "a\tbab") skip).dots) hstart)

/-- The offset of that text comes round at 54. Then the first copy is at the left edge, where at an
offset of 54 the second one would have been six pixels further right. -/
theorem comes_round_before_second_copy :
    let t := banner "a\tbab" 54
    let drawn := (afterShowings drawAt t [(ticker 0).inWorld]).drawAt (ticker 100).inWorld
    let round := cycle dotted "a\tbab" defaultSeparator
    let shown := fun skip => scrollRun (setting (ticker 0).world (ticker 0).place dotted)
      { drawn.1.state with offset := skip } 0 "a\tbab" defaultSeparator
    (∀ c, 0 ≤ dotted.charWidth c) ∧ t.scrolls (ticker 100).inWorld = true ∧
      drawn.1.state.loopReached = false ∧ drawn.1.state.offset = 54 - round ∧
      round ≠ copyDistance dotted "a\tbab" defaultSeparator ∧
      (shown (54 - round)).dots.map (·.x) = [0] ∧ (shown 54).dots.map (·.x) = [6] := by
  refine ⟨dotted_advance, ?_⟩
  decide +kernel

end TextBox

end PanelSkin
