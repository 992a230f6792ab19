import PanelSkin.Proofs.Expr.Guard
import PanelSkin.Proofs.Graphics.Canvas
import PanelSkin.Proofs.Graphics.Rect
import PanelSkin.Proofs.Widget.Correspondence

/-!
A text stays in the columns of its box. Wherever the pieces of a text start, none of them starts
left of the box, and each is cut off at its right edge: aligned lines, columns at tab stops,
wrapped lines, and a text that scrolls. Within these bounds a glyph may hang over on both sides.
-/

namespace PanelSkin

namespace TextRun

variable {t : TextRun} {d : Dot} {pen : Int}

theorem columns_of_backgroundDots {advance : Int} (hd : d ∈ t.backgroundDots pen advance) :
    t.x ≤ d.x ∧ d.x ≤ t.maxX := by
  unfold backgroundDots at hd
  split at hd
  · cases hd
  · simp only [List.mem_flatMap, List.mem_map, mem_span] at hd
    obtain ⟨x, hx, y, hy, rfl⟩ := hd
    dsimp only
    omega

theorem columns_of_glyphDots {g : Glyph} (hd : d ∈ t.glyphDots pen g) :
    t.x ≤ d.x ∧ d.x ≤ t.maxX := by
  unfold glyphDots at hd
  simp only [List.mem_flatMap, List.mem_filterMap] at hd
  obtain ⟨row, -, column, -, hpainted⟩ := hd
  split at hpainted
  · rename_i hinside
    obtain rfl := Option.some.inj hpainted
    exact ⟨hinside.1, hinside.2.1⟩
  · cases hpainted

/-- A text paints nothing left of where it starts, nor right of its last column. -/
theorem columns_of_dots (hd : d ∈ t.dots) : t.x ≤ d.x ∧ d.x ≤ t.maxX := by
  obtain ⟨⟨pen, c⟩, -, hchar⟩ := List.mem_flatMap.mp hd
  obtain hbackground | hglyph := List.mem_append.mp hchar
  · exact columns_of_backgroundDots hbackground
  · cases hfound : t.face.glyph c with
    | none => simp [hfound] at hglyph
    | some g =>
        rw [hfound] at hglyph
        exact columns_of_glyphDots hglyph

theorem width_nonneg (t : TextRun) : 0 ≤ t.width := Int.le_max_left _ _

/-- Starts in a box or right of it, and ends at its right edge at the latest. -/
def KeepsTo (t : TextRun) (box : Rect) : Prop := box.x1 ≤ t.x ∧ t.maxX = box.x2

end TextRun

theorem Align.le_leftIn (a : Align) (box : Rect) (width : Int) : box.x1 ≤ a.leftIn box width := by
  cases a with
  | left => exact Int.le_refl _
  | center =>
      change box.x1 ≤ box.x1 + max 0 _
      omega
  | right => exact Int.le_max_left _ _

namespace Typesetting

variable {t : Typesetting} {y : Int}

theorem keepsTo_runAt {x : Int} (hx : t.box.x1 ≤ x) (text : List Char) :
    (t.runAt x y text).KeepsTo t.box := ⟨hx, rfl⟩

/-- The pen never moves back at a tab: not to a stop on its left, and not over a blank. -/
theorem le_columnStart (hspace : 0 ≤ t.face.charWidth ' ') (tab : Nat) (x : Int) :
    x ≤ t.columnStart tab x := by
  unfold columnStart
  split
  · exact Int.le_max_right _ _
  · omega

theorem keepsTo_columnsFrom (hspace : 0 ≤ t.face.charWidth ' ') {tab : Nat} {x : Int}
    (hx : t.box.x1 ≤ x) {columns : List (List Char)} :
    ∀ run ∈ t.columnsFrom y tab x columns, run.KeepsTo t.box := by
  induction columns generalizing tab x with
  | nil => simp [columnsFrom]
  | cons column rest ih =>
      have hstart : t.box.x1 ≤ t.columnStart tab x :=
        Int.le_trans hx (le_columnStart hspace tab x)
      have hwidth := (t.runAt (t.columnStart tab x) y column).width_nonneg
      rw [columnsFrom]
      dsimp only
      split
      · simp
      · refine List.forall_mem_cons.mpr ⟨keepsTo_runAt hstart column, ih ?_⟩
        omega

theorem keepsTo_line (hspace : 0 ≤ t.face.charWidth ' ') {align : Align} {text : List Char} :
    ∀ run ∈ t.line align y text, run.KeepsTo t.box := by
  unfold line
  split
  · cases text.splitOn '\t' with
    | nil => simp [columns]
    | cons column rest =>
        have hwidth := (t.runAt t.box.x1 y column).width_nonneg
        rw [columns]
        split
        · simp
        · refine List.forall_mem_cons.mpr ⟨keepsTo_runAt (Int.le_refl _) column, ?_⟩
          exact keepsTo_columnsFrom hspace (by omega)
  · intro run hrun
    obtain rfl := List.mem_singleton.mp hrun
    exact keepsTo_runAt (align.le_leftIn t.box _) text

theorem keepsTo_stack (hspace : 0 ≤ t.face.charWidth ' ') {align : Align}
    {lines : List (List Char)} : ∀ run ∈ t.stack align y lines, run.KeepsTo t.box := by
  induction lines generalizing y with
  | nil => simp [stack]
  | cons text rest ih =>
      rw [stack]
      intro run hrun
      obtain hfirst | hrest := List.mem_append.mp hrun
      · exact keepsTo_line hspace run hfirst
      · exact ih run hrest

end Typesetting

namespace TextBox

/-- Static, tabbed, wrapped or scrolling, all that is drawn of a text keeps to its box. -/
theorem keepsTo_compose (t : TextBox) (setting : Typesetting)
    (hspace : 0 ≤ setting.face.charWidth ' ') (separator : String) (state : ScrollState)
    (content : String) (now : Nat) :
    ∀ run ∈ (t.compose setting separator state content now).2, run.KeepsTo setting.box := by
  unfold compose
  dsimp only
  split
  · exact Typesetting.keepsTo_stack hspace
  · split
    · intro run hrun
      obtain rfl := List.mem_singleton.mp hrun
      unfold scrollRun
      split
      · exact ⟨Int.le_refl _, rfl⟩
      · exact ⟨Int.le_refl _, rfl⟩
    · exact Typesetting.keepsTo_line hspace

end TextBox

/-- The pixels that calls paint are in the columns of a box. -/
def DrawsInColumns (box : Rect) (calls : List DrawCall) : Prop :=
  ∀ call ∈ calls, ∀ bounds, ∀ d ∈ call.dots bounds, box.x1 ≤ d.x ∧ d.x ≤ box.x2

theorem DrawsInColumns.append {box : Rect} {calls more : List DrawCall}
    (hcalls : DrawsInColumns box calls) (hmore : DrawsInColumns box more) :
    DrawsInColumns box (calls ++ more) := List.forall_mem_append.mpr ⟨hcalls, hmore⟩

theorem drawsInColumns_backdrop (look : Look) : DrawsInColumns look.box look.backdrop := by
  unfold Look.backdrop
  split
  · simp [DrawsInColumns]
  · intro call hcall bounds d hd
    obtain rfl := List.mem_singleton.mp hcall
    obtain ⟨p, hp, rfl⟩ := List.mem_map.mp hd
    unfold Rect.drawn at hp
    split at hp
    · cases hp
    · obtain ⟨⟨hleft, hright⟩, -⟩ := Rect.mem_points.mp hp
      exact ⟨Int.le_trans (Int.le_max_left _ _) hleft, Int.le_trans hright (Int.min_le_left _ _)⟩

theorem drawsInColumns_runs {box : Rect} {runs : List TextRun}
    (hruns : ∀ run ∈ runs, run.KeepsTo box) : DrawsInColumns box (runs.map .text) := by
  intro call hcall bounds d hd
  obtain ⟨run, hrun, rfl⟩ := List.mem_map.mp hcall
  obtain ⟨hstart, hend⟩ := hruns run hrun
  obtain ⟨hleft, hright⟩ := TextRun.columns_of_dots hd
  exact ⟨Int.le_trans hstart hleft, hend ▸ hright⟩

namespace TextBox

variable {σ : Type} {s : Surroundings (Run σ)}

/-- Whatever it says, however it is laid out and how far it has scrolled, a text paints no pixel
left or right of its box, if no character of its font moves the pen back. So on a canvas all other
columns stay as they are. -/
theorem draws_in_own_columns (t : TextBox) (look : Look) (now : Nat)
    (hadvance : (s.font t.font).Ensures fun found => ∀ face ∈ found, ∀ c, 0 ≤ face.charWidth c) :
    (t.draw s look now).Ensures fun drawn =>
      DrawsInColumns look.box drawn.2 ∧
        ∀ (canvas : Canvas) (x y : Nat), (x : Int) < look.box.x1 ∨ look.box.x2 < x →
          (canvas.drawAll drawn.2).pixel? x y = canvas.pixel? x y := by
  have hcolumns : (t.draw s look now).Ensures fun drawn => DrawsInColumns look.box drawn.2 := by
    apply (Run.Ensures.anyway _).bind
    intro content _
    apply hadvance.bind
    intro found hfound
    cases found with
    | none => exact .pure (by simp [DrawsInColumns])
    | some face =>
        have hspace : 0 ≤ face.charWidth ' ' := hfound face rfl ' '
        let setting : Typesetting := ⟨face, look.color, look.box, s.tabStop⟩
        have hruns := t.keepsTo_compose setting hspace s.separator
          (t.state.showing content now) content now
        exact .pure ((drawsInColumns_backdrop look).append (drawsInColumns_runs hruns))
  apply hcolumns.imp
  rintro ⟨drawn, calls⟩ hcalls
  refine ⟨hcalls, ?_⟩
  intro canvas x y hout
  apply Canvas.pixel?_drawAll_of_off
  rintro call hcall bounds d hd ⟨hx, -⟩
  have hinside := hcalls call hcall bounds d hd
  omega

/-- A font whose glyphs hang over the cells of their characters on both sides, and tab stops of
which the second lies left of the box. -/
def typewriter : Surroundings Id where
  toLookups := emptyWorld
  font _ := some ⟨4, 2, 1, 0, 2, fun _ => 4, fun _ =>
    some { width := 8, height := 1, bearingX := -2, bearingY := 1
           coverage := Array.replicate 8 255 }⟩
  picture _ _ _ := none
  rowToken _ row := .number (Int64.ofNat row)
  tabStop tab _ := some (if tab = 0 then 6 else -5)

/-- A line with two tabs, of which the second leads out of the box. What its two columns paint
ends at the two edges of the box. -/
theorem draws_in_own_columns_tabs :
    let s : Surroundings (Run Unit) := .fixed typewriter
    let t : TextBox := { font := "f", text := ⟨[.literal "a\tb\tc"]⟩ }
    let look : Look := ⟨⟨3, 0, 12, 1⟩, .black, .white⟩
    ((s.font t.font).Ensures fun found => ∀ face ∈ found, ∀ c, 0 ≤ face.charWidth c) ∧
      (t.draw typewriter look 0).2.tail.map (fun call => (call.dots ⟨0, 0, 19, 1⟩).map (·.x)) =
        [[3, 4, 5, 6, 7, 8], [9, 10, 11, 12]] ∧
      (t.draw s look 0).Ensures fun drawn =>
        DrawsInColumns look.box drawn.2 ∧
          ∀ (canvas : Canvas) (x y : Nat), (x : Int) < look.box.x1 ∨ look.box.x2 < x →
            (canvas.drawAll drawn.2).pixel? x y = canvas.pixel? x y := by
  intro s t look
  have hadvance : (s.font t.font).Ensures fun found =>
      ∀ face ∈ found, ∀ c, 0 ≤ face.charWidth c := by
    apply Run.Ensures.pure
    intro face hface c
    obtain rfl := Option.some.inj hface
    change (0 : Int) ≤ 4
    decide
  have hpainted : (t.draw typewriter look 0).2.tail.map
      (fun call => (call.dots ⟨0, 0, 19, 1⟩).map (·.x)) =
        [[3, 4, 5, 6, 7, 8], [9, 10, 11, 12]] := by
    decide +kernel
  exact ⟨hadvance, hpainted, draws_in_own_columns t look 0 hadvance⟩

end TextBox

end PanelSkin
