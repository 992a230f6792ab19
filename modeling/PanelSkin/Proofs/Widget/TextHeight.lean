import Mathlib.Data.Set.Finite.Lattice
import Mathlib.Order.Bounds.Basic
import PanelSkin.Proofs.Widget.Wrapping

/-!
The height of a text, and that of the text when it is laid out in a box in which no line is broken
at a space. Both count lines by line feeds. But what is laid out has a line behind each of them, and
the height leaves out the one behind a line feed at the very end: for every other text they agree.
-/

namespace PanelSkin

theorem length_splitOn (x : Char) (text : List Char) :
    (text.splitOn x).length = text.count x + 1 := by
  induction text with
  | nil => rfl
  | cons c rest ih =>
      rw [List.splitOn_cons_eq_if_modifyHead, List.count_cons]
      split
      · rw [List.length_cons, ih]
      · rw [List.length_modifyHead, ih]

/-- Words stay on one line if every line fits that holds the first of them. -/
theorem FillsLines.length_eq_one {measure : List Char → Int} {width : Int}
    {words : List (List Char)} {lines : List (List (List Char))}
    (h : FillsLines measure width words lines)
    (hfits : ∀ first, first <+: words → measure (joined first) ≤ width) : lines.length = 1 := by
  cases lines with
  | nil => exact absurd rfl h.some_line
  | cons line rest =>
      cases rest with
      | nil => rfl
      | cons next others =>
          -- The next line has a first word, with which this one would still have fitted.
          cases next with
          | nil => exact absurd (h.alone (List.mem_cons_of_mem _ List.mem_cons_self)) (by simp)
          | cons word more =>
              have hfull := (List.isChain_cons_cons.mp h.full).1 word rfl
              have hfirst : line ++ [word] <+: words := by
                rw [← h.flatten]
                exact ⟨more ++ others.flatten, by simp⟩
              have hfit := hfits _ hfirst
              omega

namespace Face

/-- No paragraph of a text is broken in a box of some width. -/
def Unbroken (f : Face) (width : Int) (text : List Char) : Prop :=
  ∀ paragraph ∈ text.splitOn '\n', (f.breakParagraph width paragraph).length = 1

variable {f : Face} {width : Int} {text : List Char}

theorem length_breakParagraph_eq_one {paragraph : List Char}
    (hfits : ∀ first, first <+: words paragraph → f.widthOf (joined first) ≤ width) :
    (f.breakParagraph width paragraph).length = 1 := by
  obtain ⟨lines, hlines, hfills⟩ := f.fillsLines_breakParagraph width paragraph
  rw [hlines, List.length_map]
  exact hfills.length_eq_one hfits

/-- In a font of any advances, every box is wide enough from some width on. -/
theorem exists_forall_unbroken (f : Face) (text : List Char) :
    ∃ least, ∀ width, least ≤ width → f.Unbroken width text := by
  let widths := (text.splitOn '\n').flatMap fun paragraph =>
    (words paragraph).inits.map fun first => f.widthOf (joined first)
  obtain ⟨least, hleast⟩ := (List.finite_toSet widths).bddAbove
  refine ⟨least, fun width hwidth paragraph hparagraph => ?_⟩
  apply length_breakParagraph_eq_one
  intro first hfirst
  refine (hleast (List.mem_flatMap.mpr ⟨paragraph, hparagraph, ?_⟩)).trans hwidth
  exact List.mem_map_of_mem ((List.mem_inits _ _).mpr hfirst)

theorem Unbroken.length_wrap (h : f.Unbroken width text) :
    (f.wrap width text).length = text.count '\n' + 1 := by
  have hones : (text.splitOn '\n').map (fun paragraph =>
      (f.breakParagraph width paragraph).length) = (text.splitOn '\n').map fun _ => 1 :=
    List.map_congr_left h
  rw [wrap, List.length_flatMap, hones, ← length_splitOn]
  simp

theorem lineCount_sub_one (text : List Char) : (lineCount text : Int) - 1 =
    text.count '\n' - if text.getLast? = some '\n' then 1 else 0 := by
  unfold lineCount
  split
  · omega
  · omega

theorem textHeight_eq (f : Face) {text : String} (htext : text ≠ "") :
    f.textHeight text = f.totalHeight + text.toList.count '\n' * f.lineHeight -
      if text.toList.getLast? = some '\n' then f.lineHeight else 0 := by
  rw [textHeight, if_neg (fun h => htext (String.isEmpty_iff.mp h)), lineCount_sub_one, Int.sub_mul]
  split
  · omega
  · omega

/-- A text laid out in a box in which none of its paragraphs is broken, and that is so in every box
from some width on, has one line more than line feeds. These lines are as high as the text is said
to be if it does not end in a line feed; else they are higher by one line, the one without words
behind that line feed. -/
theorem textHeight_of_unbroken (f : Face) {text : String} (htext : text ≠ "") :
    (∃ least, ∀ width, least ≤ width → f.Unbroken width text.toList) ∧
      ∀ width, f.Unbroken width text.toList →
        let lines := f.wrap width text.toList
        let height := f.totalHeight + ((lines.length : Int) - 1) * f.lineHeight
        lines.length = text.toList.count '\n' + 1 ∧
          f.textHeight text =
            height - (if text.toList.getLast? = some '\n' then f.lineHeight else 0) ∧
          (f.textHeight text = height ↔ (text.toList.getLast? = some '\n' → f.lineHeight = 0)) := by
  refine ⟨f.exists_forall_unbroken text.toList, ?_⟩
  intro width hunbroken lines height
  have hlines : lines.length = text.toList.count '\n' + 1 := hunbroken.length_wrap
  have hheight : height = f.totalHeight + text.toList.count '\n' * f.lineHeight := by
    dsimp only [height]
    rw [hlines, Int.natCast_succ, Int.add_sub_cancel]
  refine ⟨hlines, ?_, ?_⟩
  · rw [f.textHeight_eq htext, hheight]
  · rw [f.textHeight_eq htext, hheight]
    split
    · rename_i hlast
      simp only [hlast, true_imp_iff]
      omega
    · rename_i hlast
      exact iff_of_true (Int.sub_zero _) fun h => absurd h hlast

/-- A line feed at the start is counted, and one behind another. -/
theorem textHeight_of_unbroken_four_lines :
    let text := "\na b\n\nc"
    text ≠ "" ∧ terminal.Unbroken 18 text.toList ∧
      terminal.wrap 18 text.toList = [[], "a b".toList, [], "c".toList] ∧
      terminal.textHeight text = 8 + (4 - 1) * 9 := by
  intro text
  have htext : text ≠ "" := by decide +kernel
  have hunbroken : terminal.Unbroken 18 text.toList := by
    unfold Unbroken
    decide +kernel
  have hwrap : terminal.wrap 18 text.toList = [[], "a b".toList, [], "c".toList] := by
    decide +kernel
  have hheight := ((textHeight_of_unbroken terminal htext).2 18 hunbroken).2.1
  rw [hwrap] at hheight
  refine ⟨htext, hunbroken, hwrap, hheight.trans ?_⟩
  decide +kernel

/-- A character and a line feed are laid out in two lines, but said to have the height of one. -/
theorem textHeight_of_line_feed_at_end :
    let text := "a\n"
    let lines := terminal.wrap 6 text.toList
    text ≠ "" ∧ terminal.Unbroken 6 text.toList ∧ lines = [['a'], []] ∧
      terminal.textHeight text = 8 ∧
      terminal.totalHeight + (lines.length - 1) * terminal.lineHeight = 17 := by
  unfold Unbroken
  decide +kernel

end Face

end PanelSkin
