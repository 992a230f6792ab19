import PanelSkin.Proofs.Graphics.Rect
import PanelSkin.Proofs.Graphics.TextRun

/-!
A text with its first columns cut off is a window on the whole text. It paints what the whole text
paints in the columns that are left, in the same order. The characters that end further left are
passed over, and nothing is lost with them if no glyph leaves the cell of its character.
-/

namespace PanelSkin

/-- If a test has the same answer for all that comes of an element, it picks the elements. -/
theorem filter_flatMap_of_alike {α β : Type} {p : α → Bool} {q : β → Bool} {f : α → List β}
    (h : ∀ a, ∀ b ∈ f a, q b = p a) (l : List α) :
    (l.flatMap f).filter q = (l.filter p).flatMap f := by
  induction l with
  | nil => rfl
  | cons a rest ih =>
      rw [List.flatMap_cons, List.filter_append, ih, List.filter_cons]
      split
      · rename_i hp
        rw [List.flatMap_cons, List.filter_eq_self.mpr fun b hb => (h a b hb).trans hp]
      · rename_i hp
        rw [List.filter_eq_nil_iff.mpr fun b hb hq => hp ((h a b hb).symm.trans hq), List.nil_append]

theorem filter_ite_some {α : Type} (shown : Prop) [Decidable shown] (p : α → Bool) (a : α) :
    (if shown then some a else none).filter p = if p a = true ∧ shown then some a else none := by
  split
  · rename_i hshown
    simp [Option.filter_some, hshown]
  · rename_i hhidden
    rw [if_neg fun h => hhidden h.2, Option.filter_none]

/-- Every glyph lies between the pen and the place to which its character moves the pen. -/
def Face.KeepsToCells (f : Face) : Prop :=
  ∀ c g, f.glyph c = some g → 0 ≤ g.bearingX ∧ g.bearingX + g.width ≤ f.charWidth c

namespace TextRun

variable {t : TextRun} {pen : Int}

/-- The text with nothing cut off. It starts as much further left. -/
def uncut (t : TextRun) : TextRun := { t with x := t.x - t.skip, skip := 0 }

theorem backgroundDots_of_passed {advance : Int} (h : pen + advance ≤ t.x) :
    t.backgroundDots pen advance = [] := by
  unfold backgroundDots
  split
  · rfl
  · have hcolumns : span (max pen t.x) (min (pen + advance) (t.maxX + 1) - 1) = [] :=
      span_of_lt (by omega)
    rw [hcolumns, List.flatMap_nil]

theorem glyphDots_of_passed {g : Glyph} (h : pen + g.bearingX + g.width ≤ t.x) :
    t.glyphDots pen g = [] := by
  unfold glyphDots
  rw [List.flatMap_eq_nil_iff]
  intro row _
  rw [List.filterMap_eq_nil_iff]
  intro column hcolumn
  rw [List.mem_range] at hcolumn
  exact if_neg fun hshown => by omega

/-- A character of which the cell ends left of the text's position paints nothing. -/
theorem charDots_of_passed (hcells : t.face.KeepsToCells) {c : Char}
    (h : pen + t.face.charWidth c ≤ t.x) : t.charDots pen c = [] := by
  unfold charDots
  rw [backgroundDots_of_passed h, List.nil_append]
  cases hglyph : t.face.glyph c with
  | none => rfl
  | some g =>
      obtain ⟨-, hcell⟩ := hcells c g hglyph
      exact glyphDots_of_passed (by omega)

theorem backgroundDots_eq_filter (hpen : t.uncut.x ≤ pen) (advance : Int) :
    t.backgroundDots pen advance =
      (t.uncut.backgroundDots pen advance).filter fun d => t.x ≤ d.x := by
  unfold backgroundDots
  change _ = List.filter _ (if t.background.isTransparent = true then [] else _)
  split
  · rfl
  · rw [filter_flatMap_of_alike (p := fun x => decide (t.x ≤ x)), filter_span,
      Int.max_eq_left hpen]
    · rfl
    · intro x d hd
      obtain ⟨y, -, rfl⟩ := List.mem_map.mp hd
      rfl

theorem glyphDots_eq_filter (hpen : t.uncut.x ≤ pen) {g : Glyph} (hbearing : 0 ≤ g.bearingX) :
    t.glyphDots pen g = (t.uncut.glyphDots pen g).filter fun d => t.x ≤ d.x := by
  unfold glyphDots
  rw [List.filter_flatMap]
  refine congrArg (List.flatMap · _) (funext fun row => ?_)
  rw [List.filter_filterMap]
  refine congrArg (List.filterMap · _) (funext fun column => ?_)
  have hstart : t.uncut.x ≤ pen + g.bearingX + column := by omega
  rw [filter_ite_some]
  dsimp only
  simp only [decide_eq_true_eq, hstart, true_and]
  rfl

/-- What a character paints in a text of which columns are cut off is what it paints in the whole
text, as far as that is in the columns left. -/
theorem charDots_eq_filter (hcells : t.face.KeepsToCells) (hpen : t.uncut.x ≤ pen) (c : Char) :
    t.charDots pen c = (t.uncut.charDots pen c).filter fun d => t.x ≤ d.x := by
  unfold charDots
  rw [List.filter_append, backgroundDots_eq_filter hpen]
  refine congrArg (List.append _) ?_
  change _ = List.filter _ (((t.face.glyph c).map (t.uncut.glyphDots pen)).getD [])
  cases hglyph : t.face.glyph c with
  | none => rfl
  | some g =>
      obtain ⟨hbearing, -⟩ := hcells c g hglyph
      exact glyphDots_eq_filter hpen hbearing

/-- What is laid out of a text paints, after its first character, what the rest paints. A first
character that is passed over would paint nothing. -/
theorem dots_layout_cons (hcells : t.face.KeepsToCells) (hwithin : ¬ t.maxX < pen) (c : Char)
    (rest : List Char) :
    (t.layout pen (c :: rest)).1.flatMap (fun (pen, c) => t.charDots pen c) =
      t.charDots pen c ++
        (t.layout (pen + t.face.charWidth c) rest).1.flatMap fun (pen, c) => t.charDots pen c := by
  rw [layout_cons_of_within hwithin]
  split
  · rename_i hpassed
    rw [charDots_of_passed hcells hpassed, List.nil_append]
  · rfl

theorem dots_layout_eq_filter (hadvance : ∀ c, 0 ≤ t.face.charWidth c)
    (hcells : t.face.KeepsToCells) (hpen : t.uncut.x ≤ pen) (text : List Char) :
    (t.layout pen text).1.flatMap (fun (pen, c) => t.charDots pen c) =
      ((t.uncut.layout pen text).1.flatMap fun (pen, c) => t.uncut.charDots pen c).filter
        fun d => t.x ≤ d.x := by
  induction text generalizing pen with
  | nil => rfl
  | cons c rest ih =>
      by_cases hbeyond : t.maxX < pen
      · rw [layout_of_beyond hbeyond, layout_of_beyond (t := t.uncut) hbeyond]
        rfl
      · have hnext : t.uncut.x ≤ pen + t.face.charWidth c := by
          have hc := hadvance c
          omega
        rw [dots_layout_cons hcells hbeyond, dots_layout_cons (t := t.uncut) hcells hbeyond,
          List.filter_append, charDots_eq_filter hcells hpen, ih hnext]
        rfl

/-- The pen ends where the text ends, or somewhere right of the last column if the text ends there
too. -/
theorem min_layout_end (hadvance : ∀ c, 0 ≤ t.face.charWidth c) (pen : Int) (text : List Char) :
    min (t.layout pen text).2 (t.maxX + 1) =
      min (pen + t.face.widthOf text) (t.maxX + 1) := by
  induction text generalizing pen with
  | nil => exact congrArg (min · _) (Int.add_zero pen).symm
  | cons c rest ih =>
      have hend : pen + t.face.widthOf (c :: rest) =
          pen + t.face.charWidth c + t.face.widthOf rest := (Int.add_assoc _ _ _).symm
      by_cases hbeyond : t.maxX < pen
      · have hwidth := Face.widthOf_nonneg hadvance (c :: rest)
        rw [layout_of_beyond hbeyond]
        dsimp only
        omega
      · rw [hend, ← ih, layout, if_neg hbeyond]
        dsimp only
        split
        · rfl
        · rfl

/-- A text with columns cut off shows what the whole text shows in the columns left: the same
pixels in the same order. It is as wide as what is left of the text, or as the columns between
where it starts and the last one, whichever is less. -/
theorem shows_window_of_uncut (t : TextRun) (hadvance : ∀ c, 0 ≤ t.face.charWidth c)
    (hcells : t.face.KeepsToCells) :
    t.dots = t.uncut.dots.filter (fun d => t.x ≤ d.x) ∧
      t.width = max 0 (min (t.face.textWidth t.text - t.skip) (max 0 (t.maxX + 1 - t.x))) := by
  constructor
  · have hdots := dots_layout_eq_filter hadvance hcells (Int.le_refl t.uncut.x) t.text.toList
    have hstart : t.uncut.x - t.uncut.skip = t.uncut.x := Int.sub_zero _
    unfold dots placed
    rw [hstart]
    exact hdots
  · have hend := min_layout_end hadvance (t.x - t.skip) t.text.toList
    unfold width placed Face.textWidth
    omega

/-- A font in which a hyphen takes no room. A hyphen and a blank show nothing, and all else is a bar
of three pixels. -/
def barred : Face where
  totalWidth := 4
  totalHeight := 1
  totalAscent := 1
  spaceBetween := 1
  lineHeight := 1
  charWidth c := if c = '-' then 0 else 4
  glyph c := if c = '-' ∨ c = ' ' then none else
    some { width := 3, height := 1, bearingX := 1, bearingY := 1, coverage := #[255, 255, 255] }

theorem barred_advance (c : Char) : 0 ≤ barred.charWidth c := by
  change (0 : Int) ≤ if c = '-' then 0 else 4
  split
  · decide
  · decide

theorem barred_keepsToCells : barred.KeepsToCells := by
  intro c g hglyph
  obtain ⟨hshown, hg⟩ := Option.ite_none_left_eq_some.mp hglyph
  obtain rfl := Option.some.inj hg
  change (0 : Int) ≤ 1 ∧ (1 : Int) + 3 ≤ if c = '-' then 0 else 4
  rw [if_neg fun h => hshown (Or.inl h)]
  decide

/-- Six columns are cut off: the first letter, the hyphen, and the left half of the second letter.
At the other side the text ends within the last letter. -/
theorem shows_window_of_uncut_cut_letters :
    let t : TextRun := { x := 10, y := 0, maxX := 17, text := "a-b c", face := barred,
                         color := .black, background := .white, skip := 6 }
    (∀ c, 0 ≤ t.face.charWidth c) ∧ t.face.KeepsToCells ∧
      t.uncut.dots.map (·.x) =
        [4, 5, 6, 7, 5, 6, 7, 8, 9, 10, 11, 9, 10, 11, 12, 13, 14, 15, 16, 17, 17] ∧
      t.dots.map (·.x) = [10, 11, 10, 11, 12, 13, 14, 15, 16, 17, 17] ∧
      t.dots = t.uncut.dots.filter (fun d => t.x ≤ d.x) ∧ t.width = 8 := by
  intro t
  obtain ⟨hdots, hwidth⟩ := shows_window_of_uncut t barred_advance barred_keepsToCells
  refine ⟨barred_advance, barred_keepsToCells, ?_, ?_, hdots, ?_⟩
  · decide +kernel
  · decide +kernel
  · rw [hwidth]
    decide +kernel

end TextRun

end PanelSkin
