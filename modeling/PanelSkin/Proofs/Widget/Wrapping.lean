import Mathlib.Data.List.Chain
import PanelSkin.Widget.Paragraph

/-!
Text in lines. The words of a paragraph stand in its lines in order, with one space between them. A
new line is begun where the next word would make a line too wide, and nowhere else; so a line that
is too wide has one word only. None of this depends on how lines are measured: it holds of sums of
advances, and as well of what is left of such a sum in a word that is too short for it.
-/

namespace PanelSkin

/-- Words on one line, with a space between one and the next. -/
def joined (words : List (List Char)) : List Char := [' '].intercalate words

theorem joined_singleton (word : List Char) : joined [word] = word := List.intercalate_singleton

theorem joined_cons (word : List Char) {rest : List (List Char)} (h : rest ≠ []) :
    joined (word :: rest) = word ++ ' ' :: joined rest := by
  rw [joined, List.intercalate_cons_of_ne_nil h, List.append_assoc]
  rfl

theorem joined_append {first second : List (List Char)} (hfirst : first ≠ [])
    (hsecond : second ≠ []) : joined (first ++ second) = joined first ++ ' ' :: joined second := by
  induction first with
  | nil => exact absurd rfl hfirst
  | cons word rest ih =>
      by_cases hrest : rest = []
      · rw [hrest, List.singleton_append, joined_cons word hsecond, joined_singleton]
      · rw [List.cons_append, joined_cons word (List.append_ne_nil_of_left_ne_nil hrest second),
          ih hrest, joined_cons word hrest, List.append_assoc, List.cons_append]

theorem joined_concat {line : List (List Char)} (h : line ≠ []) (word : List Char) :
    joined (line ++ [word]) = joined line ++ ' ' :: word := by
  rw [joined_append h (List.cons_ne_nil word []), joined_singleton]

theorem joined_ne_nil {line : List (List Char)} (h : line ≠ [])
    (hwords : ∀ word ∈ line, word ≠ []) : joined line ≠ [] := by
  cases line with
  | nil => exact absurd rfl h
  | cons word rest =>
      obtain ⟨hword, -⟩ := List.forall_mem_cons.mp hwords
      by_cases hrest : rest = []
      · rw [hrest, joined_singleton]
        exact hword
      · rw [joined_cons word hrest]
        exact List.append_ne_nil_of_left_ne_nil hword _

/-- Breaks words into lines of some width, of which one is begun, by any measure of lines. -/
def fillBy (measure : List Char → Int) (width : Int) (line : List Char) :
    List (List Char) → List (List Char)
  | [] => [line]
  | word :: rest =>
    if line.isEmpty then fillBy measure width word rest
    else if measure (line ++ ' ' :: word) ≤ width then
      fillBy measure width (line ++ ' ' :: word) rest
    else line :: fillBy measure width word rest

/-- Breaks a text into lines of some width, by any measure of lines. -/
def wrapBy (measure : List Char → Int) (width : Int) (text : List Char) : List (List Char) :=
  (text.splitOn '\n').flatMap fun paragraph => fillBy measure width [] (Face.words paragraph)

/-- Words in lines of some width, by some measure of lines. -/
structure FillsLines (measure : List Char → Int) (width : Int) (words : List (List Char))
    (lines : List (List (List Char))) : Prop where
  /-- Every word stands in one line, and in its place. -/
  flatten : lines.flatten = words
  /-- There is a line. -/
  some_line : lines ≠ []
  /-- One without words is the only one. -/
  alone : [] ∈ lines → lines = [[]]
  /-- No line is too wide but for a single word. -/
  fits : ∀ line ∈ lines, 2 ≤ line.length → measure (joined line) ≤ width
  /-- With the first word of the next line, a line would be too wide. -/
  full : lines.IsChain fun line next =>
    ∀ word ∈ next.head?, width < measure (joined (line ++ [word]))

namespace FillsLines

variable {measure : List Char → Int} {width : Int} {line rest : List (List Char)} {word : List Char}
  {lines : List (List (List Char))}

theorem no_words (measure : List Char → Int) (width : Int) : FillsLines measure width [] [[]] where
  flatten := rfl
  some_line := List.cons_ne_nil _ _
  alone _ := rfl
  fits := by simp
  full := List.isChain_singleton _

theorem one_line (hsome : line ≠ []) (hfits : 2 ≤ line.length → measure (joined line) ≤ width) :
    FillsLines measure width line [line] where
  flatten := List.append_nil line
  some_line := List.cons_ne_nil _ _
  alone h := absurd (List.mem_singleton.mp h).symm hsome
  fits := by simpa using hfits
  full := List.isChain_singleton _

/-- A line before lines of which the first word has no room on it. -/
theorem cons (h : FillsLines measure width (word :: rest) lines) (hsome : line ≠ [])
    (hfits : 2 ≤ line.length → measure (joined line) ≤ width)
    (hfull : width < measure (joined (line ++ [word]))) :
    FillsLines measure width (line ++ word :: rest) (line :: lines) where
  flatten := congrArg (line ++ ·) h.flatten
  some_line := List.cons_ne_nil _ _
  alone hempty := by
    obtain hfirst | hlater := List.mem_cons.mp hempty
    · exact absurd hfirst.symm hsome
    · have hnone := h.flatten
      rw [h.alone hlater] at hnone
      cases hnone
  fits := List.forall_mem_cons.mpr ⟨hfits, h.fits⟩
  full := by
    refine List.isChain_cons.mpr ⟨?_, h.full⟩
    intro next hnext first hfirst
    obtain ⟨others, rfl⟩ := List.head?_eq_some_iff.mp hnext
    obtain ⟨more, rfl⟩ := List.head?_eq_some_iff.mp hfirst
    obtain rfl : first = word := (List.cons.inj h.flatten).1
    exact hfull

end FillsLines

section Filling

variable {measure : List Char → Int} {width : Int}

/-- From a line that is begun on, the words fill lines with those that are on it already. -/
theorem fillBy_joined {begun rest : List (List Char)} (hsome : begun ≠ [])
    (hbegun : ∀ word ∈ begun, word ≠ []) (hrest : ∀ word ∈ rest, word ≠ [])
    (hfits : 2 ≤ begun.length → measure (joined begun) ≤ width) :
    ∃ lines, fillBy measure width (joined begun) rest = lines.map joined ∧
      FillsLines measure width (begun ++ rest) lines := by
  induction rest generalizing begun with
  | nil => exact ⟨[begun], rfl, (List.append_nil begun).symm ▸ .one_line hsome hfits⟩
  | cons word rest ih =>
      obtain ⟨hword, hothers⟩ := List.forall_mem_cons.mp hrest
      have hline : (joined begun).isEmpty = false :=
        List.isEmpty_eq_false_iff.mpr (joined_ne_nil hsome hbegun)
      rw [fillBy, if_neg (ne_true_of_eq_false hline), ← joined_concat hsome]
      split
      · rename_i hroom
        have hlonger : ∀ w ∈ begun ++ [word], w ≠ [] :=
          List.forall_mem_append.mpr ⟨hbegun, List.forall_mem_singleton.mpr hword⟩
        obtain ⟨lines, hlines, hfills⟩ := ih (by simp) hlonger hothers fun _ => hroom
        rw [List.append_assoc, List.singleton_append] at hfills
        exact ⟨lines, hlines, hfills⟩
      · rename_i hnone
        obtain ⟨lines, hlines, hfills⟩ := ih (List.cons_ne_nil word [])
          (List.forall_mem_singleton.mpr hword) hothers fun hmany => absurd hmany (by simp)
        rw [joined_singleton] at hlines
        exact ⟨begun :: lines, congrArg (joined begun :: ·) hlines,
          hfills.cons hsome hfits (Int.lt_of_not_ge hnone)⟩

theorem fillBy_nil {words : List (List Char)} (hwords : ∀ word ∈ words, word ≠ []) :
    ∃ lines, fillBy measure width [] words = lines.map joined ∧
      FillsLines measure width words lines := by
  cases words with
  | nil => exact ⟨[[]], rfl, .no_words measure width⟩
  | cons word rest =>
      obtain ⟨hword, hrest⟩ := List.forall_mem_cons.mp hwords
      have hfits : 2 ≤ [word].length → measure (joined [word]) ≤ width :=
        fun hmany => absurd hmany (by simp)
      have hfilled := fillBy_joined (List.cons_ne_nil word [])
        (List.forall_mem_singleton.mpr hword) hrest hfits
      rw [joined_singleton] at hfilled
      exact hfilled

end Filling

namespace Face

theorem words_ne_nil {paragraph word : List Char} (h : word ∈ words paragraph) : word ≠ [] := by
  simpa using (List.mem_filter.mp h).2

theorem fillLines_eq_fillBy (f : Face) (width : Int) (line : List Char) (words : List (List Char)) :
    f.fillLines width line words = fillBy f.widthOf width line words := by
  induction words generalizing line with
  | nil => rfl
  | cons word rest ih => simp only [fillLines, fillBy, ih]

theorem fillsLines_breakParagraph (f : Face) (width : Int) (paragraph : List Char) :
    ∃ lines, f.breakParagraph width paragraph = lines.map joined ∧
      FillsLines f.widthOf width (words paragraph) lines := by
  rw [breakParagraph, fillLines_eq_fillBy]
  exact fillBy_nil fun _ => words_ne_nil

theorem breakParagraph_ne_nil (f : Face) (width : Int) (paragraph : List Char) :
    f.breakParagraph width paragraph ≠ [] := by
  obtain ⟨lines, hlines, hfills⟩ := f.fillsLines_breakParagraph width paragraph
  rw [hlines]
  exact fun h => hfills.some_line (List.map_eq_nil_iff.mp h)

theorem wrap_ne_nil (f : Face) (width : Int) (text : List Char) : f.wrap width text ≠ [] := by
  obtain ⟨first, hfirst⟩ := List.exists_mem_of_ne_nil _ (List.splitOn_ne_nil '\n' text)
  intro h
  exact f.breakParagraph_ne_nil width first (List.flatMap_eq_nil_iff.mp h first hfirst)

theorem wrap_eq_wrapBy (f : Face) (width : Int) (text : List Char) :
    f.wrap width text = wrapBy f.widthOf width text := by
  unfold wrap breakParagraph wrapBy
  simp only [fillLines_eq_fillBy]

end Face

/-- A text is wrapped paragraph by paragraph. Each has its words in its lines, in order, with single
spaces between them; each is broken where a word would not fit, and no line is too wide but for a
single word. A face measures lines by the sums of its advances, but for all of this any measure will
do. -/
theorem wrap_fills_lines (width : Int) (text : List Char) :
    (∀ f : Face, f.wrap width text = wrapBy f.widthOf width text) ∧
      ∀ measure : List Char → Int, ∃ lines : List Char → List (List (List Char)),
        wrapBy measure width text = ((text.splitOn '\n').flatMap lines).map joined ∧
          ∀ paragraph, FillsLines measure width (Face.words paragraph) (lines paragraph) := by
  refine ⟨fun f => f.wrap_eq_wrapBy width text, fun measure => ?_⟩
  have hparagraph : ∀ paragraph, ∃ lines, fillBy measure width [] (Face.words paragraph) =
      lines.map joined ∧ FillsLines measure width (Face.words paragraph) lines :=
    fun paragraph => fillBy_nil fun _ => Face.words_ne_nil
  choose lines hlines hfills using hparagraph
  refine ⟨lines, ?_, hfills⟩
  rw [List.map_flatMap]
  unfold wrapBy
  simp only [hlines]

/-- A font with cells of six by eight pixels, and a pixel between lines. -/
def Face.terminal : Face := ⟨6, 8, 7, 0, 9, fun _ => 6, fun _ => none⟩

example : Face.terminal.wrap 36 "aa bb cc\n\n dd".toList =
    ["aa bb".toList, "cc".toList, [], "dd".toList] := by
  decide +kernel

end PanelSkin
