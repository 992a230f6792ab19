import Mathlib.Order.Bounds.Defs
import PanelSkin.Proofs.Widget.Wrapping

/-!
Wrapped text has as few lines as can be. However its words are put in groups that fit the box, each
line takes at least as many words as are left of the group that it begins in: so no line ends before
that group does, and there is a group for every line.
-/

namespace PanelSkin

/-- With some of the words left out, a line is a part of itself. -/
theorem joined_sublist {part whole : List (List Char)} (h : part.Sublist whole) :
    (joined part).Sublist (joined whole) := by
  induction h with
  | slnil => exact List.Sublist.refl _
  | @cons part whole word _ ih =>
      by_cases hwhole : whole = []
      · rw [hwhole] at ih
        exact (List.sublist_nil.mp ih) ▸ List.nil_sublist _
      · rw [joined_cons word hwhole]
        exact ih.trans ((List.sublist_cons_self _ _).trans (List.sublist_append_right _ _))
  | @cons_cons part whole word hpart ih =>
      by_cases hnone : part = []
      · by_cases hwhole : whole = []
        · rw [hnone, hwhole]
        · rw [hnone, joined_singleton, joined_cons word hwhole]
          exact List.sublist_append_left _ _
      · have hwhole : whole ≠ [] := fun h => hnone (List.sublist_nil.mp (h ▸ hpart))
        rw [joined_cons word hnone, joined_cons word hwhole]
        exact (List.Sublist.refl word).append (ih.cons_cons ' ')

namespace Face

variable {f : Face} {width : Int}

theorem widthOf_le_of_sublist (hadvance : ∀ c, 0 ≤ f.charWidth c) {part whole : List Char}
    (h : part.Sublist whole) : f.widthOf part ≤ f.widthOf whole := by
  induction h with
  | slnil => exact Int.le_refl _
  | @cons part whole c _ ih =>
      have hc := hadvance c
      change f.widthOf part ≤ f.charWidth c + f.widthOf whole
      omega
  | @cons_cons part whole c _ ih =>
      change f.charWidth c + f.widthOf part ≤ f.charWidth c + f.widthOf whole
      omega

/-- Words in groups, none of them empty, that fit a width if they have more than one word. -/
structure FitsGroups (f : Face) (width : Int) (words : List (List Char))
    (groups : List (List (List Char))) : Prop where
  flatten : groups.flatten = words
  some_word : [] ∉ groups
  fits : ∀ group ∈ groups, 2 ≤ group.length → f.widthOf (joined group) ≤ width

/-- A line to which no word can be added ends behind the group in which it begins: it leaves no more
words than are behind that group. -/
theorem suffix_of_full (hadvance : ∀ c, 0 ≤ f.charWidth c)
    {line left group behind : List (List Char)} (hline : line ≠ [])
    (hfull : ∀ word ∈ left.head?, width < f.widthOf (joined (line ++ [word])))
    (hgroup : 2 ≤ group.length → f.widthOf (joined group) ≤ width)
    (h : line ++ left <:+ group ++ behind) : left <:+ behind := by
  have hleft : left <:+ group ++ behind := (List.suffix_append line left).trans h
  obtain hwithin | ⟨extra, hextra⟩ :=
    List.suffix_or_suffix_of_suffix hleft (List.suffix_append group behind)
  · exact hwithin
  · cases extra with
    | nil => exact hextra ▸ List.suffix_refl _
    | cons word more =>
        -- The group goes on behind the line, so it holds the line and a word that did not fit.
        obtain ⟨before, hbefore⟩ := h
        have hholds : before ++ line ++ word :: more = group := by
          have hsame : before ++ line ++ word :: more ++ behind = group ++ behind := by
            rw [List.append_assoc, hextra, List.append_assoc, hbefore]
          exact List.append_cancel_right hsame
        have hpart : (line ++ [word]).Sublist group := by
          rw [← hholds, List.append_assoc]
          exact ((List.Sublist.refl line).append
            ((List.nil_sublist more).cons_cons word)).trans (List.sublist_append_right _ _)
        have hmany : 2 ≤ group.length := by
          have hlength := hpart.length_le
          have hpos := List.length_pos_iff.mpr hline
          rw [List.length_append, List.length_singleton] at hlength
          omega
        have hwide : width < f.widthOf (joined (line ++ [word])) :=
          hfull word (by rw [← hextra]; rfl)
        have hfits := hgroup hmany
        have hwider := widthOf_le_of_sublist hadvance (joined_sublist hpart)
        omega

theorem length_le_of_suffix (hadvance : ∀ c, 0 ≤ f.charWidth c)
    {lines groups : List (List (List Char))}
    (hfits : ∀ group ∈ groups, 2 ≤ group.length → f.widthOf (joined group) ≤ width)
    (hsome : [] ∉ lines)
    (hfull : lines.IsChain fun line next =>
      ∀ word ∈ next.head?, width < f.widthOf (joined (line ++ [word])))
    (h : lines.flatten <:+ groups.flatten) : lines.length ≤ groups.length := by
  induction groups generalizing lines with
  | nil =>
      have hnone : lines.flatten = [] := List.suffix_nil.mp h
      cases lines with
      | nil => exact Nat.le_refl _
      | cons line rest =>
          exact absurd ((List.append_eq_nil_iff.mp hnone).1 ▸ List.mem_cons_self) hsome
  | cons group others ih =>
      cases lines with
      | nil => exact Nat.zero_le _
      | cons line rest =>
          obtain ⟨hgroup, hothers⟩ := List.forall_mem_cons.mp hfits
          obtain ⟨hnext, hrest⟩ := List.isChain_cons.mp hfull
          have hline : line ≠ [] := fun h => hsome (h ▸ List.mem_cons_self)
          have hsome' : [] ∉ rest := fun h => hsome (List.mem_cons_of_mem _ h)
          have hword : ∀ word ∈ rest.flatten.head?,
              width < f.widthOf (joined (line ++ [word])) := by
            intro word hword
            cases rest with
            | nil => cases hword
            | cons next _ =>
                cases next with
                | nil => exact absurd List.mem_cons_self hsome'
                | cons first _ => exact hnext _ rfl word hword
          exact Nat.succ_le_succ
            (ih hothers hsome' hrest (suffix_of_full hadvance hline hword hgroup h))

theorem length_le_of_fitsGroups (hadvance : ∀ c, 0 ≤ f.charWidth c) {words : List (List Char)}
    {lines groups : List (List (List Char))} (hlines : FillsLines f.widthOf width words lines)
    (hgroups : f.FitsGroups width words groups) : lines.length ≤ max 1 groups.length := by
  by_cases hempty : [] ∈ lines
  · rw [hlines.alone hempty]
    exact Nat.le_max_left _ _
  · have hsame : lines.flatten = groups.flatten := hlines.flatten.trans hgroups.flatten.symm
    exact Nat.le_trans (length_le_of_suffix hadvance hgroups.fits hempty hlines.full
      (hsame ▸ List.suffix_refl _)) (Nat.le_max_right _ _)

/-- The lines are such groups themselves, but for the line of a paragraph without words. -/
theorem fitsGroups_of_fillsLines {words : List (List Char)} {lines : List (List (List Char))}
    (h : FillsLines f.widthOf width words lines) :
    ∃ groups, f.FitsGroups width words groups ∧ lines.length = max 1 groups.length := by
  by_cases hempty : [] ∈ lines
  · obtain rfl := h.alone hempty
    exact ⟨[], ⟨h.flatten, List.not_mem_nil, by simp⟩, rfl⟩
  · have hpos := List.length_pos_iff.mpr h.some_line
    exact ⟨lines, ⟨h.flatten, hempty, h.fits⟩, by omega⟩

/-- In a font of which no character moves the pen back, each paragraph is wrapped into the fewest
lines that it can have: as many as the groups in which its words can be put if each group fits the
box or is one word, where a paragraph without words has one line. -/
theorem wrap_uses_fewest_lines (hadvance : ∀ c, 0 ≤ f.charWidth c) (width : Int)
    (text : List Char) :
    f.wrap width text = (text.splitOn '\n').flatMap (f.breakParagraph width) ∧
      ∀ paragraph ∈ text.splitOn '\n',
        IsLeast {count | ∃ groups, f.FitsGroups width (words paragraph) groups ∧
          count = max 1 groups.length} (f.breakParagraph width paragraph).length := by
  refine ⟨rfl, fun paragraph _ => ?_⟩
  obtain ⟨lines, hlines, hfills⟩ := f.fillsLines_breakParagraph width paragraph
  rw [hlines, List.length_map]
  refine ⟨fitsGroups_of_fillsLines hfills, ?_⟩
  rintro count ⟨groups, hgroups, rfl⟩
  exact length_le_of_fitsGroups hadvance hfills hgroups

/-- Two of three words fit a line, so a paragraph of them has two lines, and no fewer. -/
theorem wrap_uses_fewest_lines_of_three_words :
    let text := "aa bb cc\ndd".toList
    (∀ c, 0 ≤ terminal.charWidth c) ∧ "aa bb cc".toList ∈ text.splitOn '\n' ∧
      terminal.breakParagraph 36 "aa bb cc".toList = ["aa bb".toList, "cc".toList] ∧
      IsLeast {count | ∃ groups, terminal.FitsGroups 36 (words "aa bb cc".toList) groups ∧
        count = max 1 groups.length} 2 := by
  intro text
  have hadvance : ∀ c, 0 ≤ terminal.charWidth c := fun c => by
    change (0 : Int) ≤ 6
    decide
  have hparagraph : "aa bb cc".toList ∈ text.splitOn '\n' := by decide +kernel
  have hlines : terminal.breakParagraph 36 "aa bb cc".toList = ["aa bb".toList, "cc".toList] := by
    decide +kernel
  have hleast := (wrap_uses_fewest_lines hadvance 36 text).2 _ hparagraph
  rw [hlines] at hleast
  exact ⟨hadvance, hparagraph, hlines, hleast⟩

end Face

end PanelSkin
