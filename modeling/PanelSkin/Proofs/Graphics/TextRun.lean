import PanelSkin.Graphics.TextRun

/-!
What the parts of a text paint. If no character moves the pen back, a text paints what its first
part paints and then what the second part paints behind it. What ends left of the text's position
paints nothing, nor does what starts right of its last column.
-/

namespace PanelSkin

namespace Face

theorem widthOf_append (f : Face) (first second : List Char) :
    f.widthOf (first ++ second) = f.widthOf first + f.widthOf second := by
  induction first with
  | nil => exact (Int.zero_add _).symm
  | cons c rest ih =>
      change f.charWidth c + f.widthOf (rest ++ second) = f.charWidth c + f.widthOf rest + _
      rw [ih, Int.add_assoc]

theorem widthOf_nonneg {f : Face} (hadvance : ∀ c, 0 ≤ f.charWidth c) (text : List Char) :
    0 ≤ f.widthOf text := by
  induction text with
  | nil => exact Int.le_refl 0
  | cons c rest ih => exact Int.add_nonneg (hadvance c) ih

end Face

namespace TextRun

variable {t : TextRun} {pen : Int}

theorem layout_of_beyond (h : t.maxX < pen) (text : List Char) : t.layout pen text = ([], pen) := by
  cases text with
  | nil => rfl
  | cons c rest => exact if_pos h

theorem layout_cons_of_within (h : ¬ t.maxX < pen) (c : Char) (rest : List Char) :
    (t.layout pen (c :: rest)).1 =
      if pen + t.face.charWidth c ≤ t.x then (t.layout (pen + t.face.charWidth c) rest).1
      else (pen, c) :: (t.layout (pen + t.face.charWidth c) rest).1 := by
  rw [layout, if_neg h]
  dsimp only
  split
  · rfl
  · rfl

/-- The part of a text behind another part is laid out from where that one ends. Where the line
is over in the first part, it is over for the second one too, since the pen is not moved back. -/
theorem layout_append (hadvance : ∀ c, 0 ≤ t.face.charWidth c) (pen : Int)
    (first second : List Char) :
    (t.layout pen (first ++ second)).1 =
      (t.layout pen first).1 ++ (t.layout (pen + t.face.widthOf first) second).1 := by
  induction first generalizing pen with
  | nil => exact congrArg (fun start => (t.layout start second).1) (Int.add_zero pen).symm
  | cons c rest ih =>
      by_cases hbeyond : t.maxX < pen
      · have hwidth := Face.widthOf_nonneg hadvance (c :: rest)
        rw [layout_of_beyond hbeyond, layout_of_beyond hbeyond, layout_of_beyond (by omega)]
        rfl
      · have hend : pen + t.face.widthOf (c :: rest) =
            pen + t.face.charWidth c + t.face.widthOf rest := (Int.add_assoc _ _ _).symm
        rw [List.cons_append, layout_cons_of_within hbeyond, layout_cons_of_within hbeyond, ih, hend]
        split
        · rfl
        · rfl

/-- Characters that end left of the text's position do not show. -/
theorem layout_of_passed (hadvance : ∀ c, 0 ≤ t.face.charWidth c) {text : List Char}
    (h : pen + t.face.widthOf text ≤ t.x) : (t.layout pen text).1 = [] := by
  induction text generalizing pen with
  | nil => rfl
  | cons c rest ih =>
      have hend : pen + (t.face.charWidth c + t.face.widthOf rest) ≤ t.x := h
      have hrest := Face.widthOf_nonneg hadvance rest
      by_cases hbeyond : t.maxX < pen
      · rw [layout_of_beyond hbeyond]
      · rw [layout_cons_of_within hbeyond, if_pos (by omega)]
        exact ih (by omega)

/-- Some text in the place of a run, with its first columns cut off. -/
def ofText (t : TextRun) (text : List Char) (skip : Int) : TextRun :=
  { t with text := String.ofList text, skip }

theorem layout_ofText (t : TextRun) (text : List Char) (skip pen : Int) (shown : List Char) :
    (t.ofText text skip).layout pen shown = t.layout pen shown := by
  induction shown generalizing pen with
  | nil => rfl
  | cons c rest ih =>
      simp only [layout, ih]
      rfl

theorem dots_ofText (t : TextRun) (text : List Char) (skip : Int) :
    (t.ofText text skip).dots =
      (t.layout (t.x - skip) text).1.flatMap fun (pen, c) => t.charDots pen c := by
  rw [dots, placed, layout_ofText, ofText, String.toList_ofList]
  rfl

/-- A text in two parts paints what they paint, the second one at the end of the first. -/
theorem dots_ofText_append (hadvance : ∀ c, 0 ≤ t.face.charWidth c) (first second : List Char)
    (skip : Int) :
    (t.ofText (first ++ second) skip).dots =
      (t.ofText first skip).dots ++ (t.ofText second (skip - t.face.widthOf first)).dots := by
  have hstart : t.x - skip + t.face.widthOf first = t.x - (skip - t.face.widthOf first) := by omega
  rw [dots_ofText, dots_ofText, dots_ofText, layout_append hadvance, List.flatMap_append, hstart]

/-- A text of which all columns are cut off paints nothing. -/
theorem dots_ofText_of_passed (hadvance : ∀ c, 0 ≤ t.face.charWidth c) {text : List Char}
    {skip : Int} (h : t.face.widthOf text ≤ skip) : (t.ofText text skip).dots = [] := by
  rw [dots_ofText, layout_of_passed hadvance (by omega)]
  rfl

/-- A text that starts right of the last column paints nothing. -/
theorem dots_ofText_of_beyond {skip : Int} (h : t.maxX < t.x - skip) (text : List Char) :
    (t.ofText text skip).dots = [] := by
  rw [dots_ofText, layout_of_beyond h]
  rfl

end TextRun

end PanelSkin
