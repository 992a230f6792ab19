import Mathlib.Order.Bounds.Defs
import PanelSkin.Proofs.Expr.Execution
import PanelSkin.Proofs.Graphics.Rect
import PanelSkin.Proofs.Widget.Settling
import PanelSkin.Proofs.Widget.Wrapping

/-!
How many lines of a wrapped text are drawn, and where. A line is drawn if there is room for its full
height, though below the last one nothing is drawn and its characters would do. So the lines lie in
the box however they are aligned, and sometimes one is left out of which the characters had room.
-/

namespace PanelSkin

theorem isGreatest_min {holds : Nat → Prop} {limit : Nat} (h : ∀ n, holds n ↔ n ≤ limit)
    (most : Nat) : IsGreatest {n | n ≤ most ∧ holds n} (min most limit) := by
  refine ⟨⟨Nat.min_le_left _ _, (h _).mpr (Nat.min_le_right _ _)⟩, ?_⟩
  rintro n ⟨hmost, hlimit⟩
  exact Nat.le_min.mpr ⟨hmost, (h n).mp hlimit⟩

/-- What is not higher than a box is inside it, wherever it is aligned. -/
theorem VAlign.topIn_inside (v : VAlign) {box : Rect} {height : Int} (hbox : 0 < box.height)
    (h : height ≤ box.height) :
    box.y1 ≤ v.topIn box height ∧ v.topIn box height + height - 1 ≤ box.y2 := by
  have hrows := Rect.height_le hbox
  cases v with
  | top =>
      dsimp only [topIn]
      omega
  | middle =>
      have hhalf : (box.height - height).tdiv 2 = (box.height - height) / 2 :=
        Int.tdiv_eq_ediv_of_nonneg (by omega)
      dsimp only [topIn]
      omega
  | bottom =>
      dsimp only [topIn]
      omega

namespace Face

variable {f : Face} {box : Rect}

theorem lineLimit_eq (hline : 1 ≤ f.lineHeight) (hbox : 0 < box.height) :
    (f.lineLimit box : Int) = max 1 (box.height / f.lineHeight) := by
  rw [lineLimit, Int.max_eq_right hline, Int.tdiv_eq_ediv_of_nonneg (by omega)]
  omega

theorem one_le_wholeLines (hline : 1 ≤ f.lineHeight) (h : f.lineHeight ≤ box.height) :
    1 ≤ box.height / f.lineHeight := by
  rw [Int.le_ediv_iff_mul_le (by omega)]
  omega

theorem le_lineLimit_iff (hline : 1 ≤ f.lineHeight) (hbox : 0 < box.height) (count : Nat) :
    count ≤ f.lineLimit box ↔ count ≤ 1 ∨ count * f.lineHeight ≤ box.height := by
  have hquotient : (count : Int) ≤ box.height / f.lineHeight ↔
      count * f.lineHeight ≤ box.height := Int.le_ediv_iff_mul_le (by omega)
  have hlimit := lineLimit_eq hline hbox
  omega

theorem linesHeight_eq {count : Nat} (h : 1 ≤ count) :
    f.linesHeight count = f.totalHeight + ((count : Int) - 1) * f.lineHeight := by
  rw [linesHeight, Int.max_eq_right (by omega)]

/-- How many lines have room in a box if the last one needs no more than the height of its
characters. -/
def lineRoom (f : Face) (box : Rect) : Int := (box.height - f.totalHeight) / f.lineHeight + 1

theorem le_lineRoom_iff (hline : 1 ≤ f.lineHeight) {count : Int} :
    count ≤ f.lineRoom box ↔ f.totalHeight + (count - 1) * f.lineHeight ≤ box.height := by
  have hquotient : count - 1 ≤ (box.height - f.totalHeight) / f.lineHeight ↔
      (count - 1) * f.lineHeight ≤ box.height - f.totalHeight :=
    Int.le_ediv_iff_mul_le (by omega)
  unfold lineRoom
  omega

/-- There is room for one line more than for lines of the full height if the characters fit into
what those leave of the box. -/
theorem lineRoom_eq (f : Face) (box : Rect) (htotal : 1 ≤ f.totalHeight)
    (hline : f.totalHeight ≤ f.lineHeight) : f.lineRoom box = box.height / f.lineHeight +
      if f.totalHeight ≤ box.height % f.lineHeight then 1 else 0 := by
  have hrest := Int.emod_lt_of_pos box.height (b := f.lineHeight) (by omega)
  have hrest' := Int.emod_nonneg box.height (b := f.lineHeight) (by omega)
  have hparts := Int.mul_ediv_add_emod box.height f.lineHeight
  have hquotient : box.height - f.totalHeight =
      box.height % f.lineHeight - f.totalHeight + f.lineHeight * (box.height / f.lineHeight) := by
    omega
  rw [lineRoom, hquotient, Int.add_mul_ediv_left _ _ (by omega)]
  split
  · rw [Int.ediv_eq_zero_of_lt (by omega) (by omega)]
    omega
  · have hbelow : (box.height % f.lineHeight - f.totalHeight) / f.lineHeight = -1 := by
      rw [Int.ediv_eq_iff_of_pos (by omega)]
      omega
    omega

theorem one_le_lineRoom (hline : 1 ≤ f.lineHeight) (hbox : f.totalHeight ≤ box.height) :
    1 ≤ f.lineRoom box := by
  rw [le_lineRoom_iff hline]
  omega

/-- The limit of lines leaves out one line at most for which there is room, and none if the
characters of that line do not fit into what is left below the lines of the full height. -/
theorem lineRoom_of_lineLimit (htotal : 1 ≤ f.totalHeight) (hline : f.totalHeight ≤ f.lineHeight)
    (hbox : f.totalHeight ≤ box.height) :
    f.lineRoom box = f.lineLimit box +
      if f.lineHeight ≤ box.height ∧ f.totalHeight ≤ box.height % f.lineHeight then 1 else 0 := by
  have hlimit : (f.lineLimit box : Int) = max 1 (box.height / f.lineHeight) :=
    lineLimit_eq (by omega) (by omega)
  have hsome : 1 ≤ f.lineRoom box := one_le_lineRoom (by omega) hbox
  have hroom := f.lineRoom_eq box htotal hline
  by_cases hwhole : f.lineHeight ≤ box.height
  · rw [hroom, hlimit, Int.max_eq_right (one_le_wholeLines (by omega) hwhole)]
    simp only [hwhole, true_and]
  · have hnone : box.height / f.lineHeight = 0 := Int.ediv_eq_zero_of_lt (by omega) (by omega)
    rw [if_neg (fun h => hwhole h.1), hlimit, hnone]
    rw [hnone] at hroom
    split at hroom
    · omega
    · omega

/-- Lines within the limit are not higher than the box. -/
theorem linesHeight_le (htotal : 1 ≤ f.totalHeight) (hline : f.totalHeight ≤ f.lineHeight)
    (hbox : f.totalHeight ≤ box.height) {count : Nat} (hsome : 1 ≤ count)
    (hcount : count ≤ f.lineLimit box) : f.linesHeight count ≤ box.height := by
  have hroom := lineRoom_of_lineLimit htotal hline hbox
  rw [linesHeight_eq hsome, ← le_lineRoom_iff (by omega)]
  split at hroom
  · omega
  · omega

/-- The characters of each line are in the box if the lines are not higher than it, wherever they
are aligned. -/
theorem line_inside (v : VAlign) (hbox : 0 < box.height) (hline : 0 ≤ f.lineHeight) {count : Nat}
    (hheight : f.linesHeight count ≤ box.height) {k : Nat} (hk : k < count) :
    let y := v.topIn box (f.linesHeight count) + k * f.lineHeight
    box.y1 ≤ y ∧ y + f.totalHeight - 1 ≤ box.y2 := by
  intro y
  obtain ⟨htop, hend⟩ := v.topIn_inside hbox hheight
  have hbelow : 0 ≤ (k : Int) * f.lineHeight := Int.mul_nonneg (by omega) hline
  have hlast : (k : Int) * f.lineHeight ≤ (count - 1) * f.lineHeight :=
    Int.mul_le_mul_of_nonneg_right (by omega) hline
  have hlines : f.linesHeight count = f.totalHeight + (count - 1) * f.lineHeight :=
    linesHeight_eq (by omega)
  dsimp only [y]
  constructor
  · omega
  · omega

/-- Of some lines, those within the limit are as many as have room or one less, and fewer only if
one more is left and its characters fit below lines of the full height. -/
theorem exists_room (htotal : 1 ≤ f.totalHeight) (hline : f.totalHeight ≤ f.lineHeight)
    (hbox : f.totalHeight ≤ box.height) {lines : Nat} (hsome : 1 ≤ lines) :
    let count := min lines (f.lineLimit box)
    ∃ room, IsGreatest {n : Nat | n ≤ lines ∧
        f.totalHeight + (n - 1) * f.lineHeight ≤ box.height} room ∧
      count ≤ room ∧ room ≤ count + 1 ∧
      (count = room ↔ box.height < f.lineHeight ∨ box.height % f.lineHeight < f.totalHeight ∨
        lines ≤ box.height / f.lineHeight) := by
  intro count
  have hlimit : (f.lineLimit box : Int) = max 1 (box.height / f.lineHeight) :=
    lineLimit_eq (by omega) (by omega)
  have hroom := lineRoom_of_lineLimit htotal hline hbox
  have hwhole : f.lineHeight ≤ box.height → 1 ≤ box.height / f.lineHeight :=
    one_le_wholeLines (by omega)
  refine ⟨min lines (f.lineRoom box).toNat, ?_, ?_⟩
  · apply isGreatest_min
    intro n
    have hfirst : 1 ≤ f.lineRoom box := one_le_lineRoom (by omega) hbox
    rw [← le_lineRoom_iff (by omega)]
    omega
  · split at hroom
    · omega
    · omega

end Face

namespace Typesetting

theorem stack_eq (t : Typesetting) (align : Align) (y : Int) (lines : List (List Char))
    (first : Nat) : t.stack align (y + first * t.face.lineHeight) lines =
      (lines.zipIdx first).flatMap fun (line, k) =>
        t.line align (y + k * t.face.lineHeight) line := by
  induction lines generalizing first with
  | nil => rfl
  | cons line rest ih =>
      have hnext : y + first * t.face.lineHeight + t.face.lineHeight =
          y + (first + 1 : Nat) * t.face.lineHeight := by
        rw [Int.natCast_succ, Int.add_mul, Int.one_mul, Int.add_assoc]
      rw [stack, hnext, ih, List.zipIdx_cons, List.flatMap_cons]

/-- Wrapped text is as many of its lines as the limit has it, each one line height below the one
before. -/
theorem wrapped_eq (t : Typesetting) (align : Align) (valign : VAlign) {text : List Char}
    {lines : List (List Char)} (hlines : t.face.wrap t.box.width text = lines) {count : Nat}
    (hcount : min lines.length (t.face.lineLimit t.box) = count) :
    let top := valign.topIn t.box (t.face.linesHeight count)
    t.wrapped align valign text = (lines.take count).zipIdx.flatMap fun (line, k) =>
      t.line align (top + k * t.face.lineHeight) line := by
  intro top
  have htaken : lines.take (t.face.lineLimit t.box) = lines.take count := by
    rw [List.take_eq_take_iff]
    omega
  have hlength : (lines.take count).length = count := by
    rw [List.length_take]
    omega
  have hstack := t.stack_eq align top (lines.take count) 0
  rw [Int.natCast_zero, Int.zero_mul, Int.add_zero] at hstack
  unfold wrapped
  rw [hlines]
  dsimp only
  rw [htaken, hlength, hstack]

end Typesetting

namespace TextBox

variable {m : Type → Type} [Monad m] {σ : Type} {E : Execution m σ} {s : Surroundings m}
  {t : TextBox} {look : Look} {now : Nat} {st st₁ st₂ : σ} {content : String} {face : Face}

theorem run_draw_of_multiline (hmultiline : t.multiline = true)
    (hcontent : E.run (t.content s) st = some (content, st₁))
    (hface : E.run (s.font t.font) st₁ = some (some face, st₂)) :
    let setting : Typesetting := ⟨face, look.color, look.box, s.tabStop⟩
    E.run (t.draw s look now) st =
      some (({ t with state := { t.state.showing content now with loopReached := true } },
        look.backdrop ++ (setting.wrapped t.align t.valign content.toList).map .text), st₂) := by
  unfold draw
  rw [E.run_bind_of_run hcontent]
  dsimp only
  rw [E.run_bind_of_run hface]
  dsimp only [compose]
  rw [if_pos hmultiline, E.run_pure]

/-- A text of several lines is drawn one line below the other, as far as whole lines fit into the
box, but with one line at least; and the characters of each of these lie in the box. So a line can
be left out of which the characters had room: that is the one behind the last one drawn, if what the
whole lines leave of the box is as high as the characters. -/
theorem draws_lines_with_room (hmultiline : t.multiline = true)
    (hcontent : E.run (t.content s) st = some (content, st₁))
    (hface : E.run (s.font t.font) st₁ = some (some face, st₂)) (htotal : 1 ≤ face.totalHeight)
    (hline : face.totalHeight ≤ face.lineHeight) (hbox : face.totalHeight ≤ look.box.height) :
    let box := look.box
    let setting : Typesetting := ⟨face, look.color, box, s.tabStop⟩
    let lines := face.wrap box.width content.toList
    let count := min lines.length (max 1 (box.height / face.lineHeight)).toNat
    let top := t.valign.topIn box (face.totalHeight + (count - 1) * face.lineHeight)
    let y := fun k : Nat => top + k * face.lineHeight
    E.run (t.draw s look now) st =
        some (({ t with state := { t.state.showing content now with loopReached := true } },
          look.backdrop ++ ((lines.take count).zipIdx.flatMap fun (line, k) =>
            setting.line t.align (y k) line).map .text), st₂) ∧
      1 ≤ count ∧
      (∀ k < count, box.y1 ≤ y k ∧ y k + face.totalHeight - 1 ≤ box.y2) ∧
      IsGreatest {n : Nat | n ≤ lines.length ∧ (n ≤ 1 ∨ n * face.lineHeight ≤ box.height)} count ∧
      ∃ room, IsGreatest {n : Nat | n ≤ lines.length ∧
            face.totalHeight + (n - 1) * face.lineHeight ≤ box.height} room ∧
        count ≤ room ∧ room ≤ count + 1 ∧
        (count = room ↔ box.height < face.lineHeight ∨
          box.height % face.lineHeight < face.totalHeight ∨
          lines.length ≤ box.height / face.lineHeight) := by
  intro box setting lines count top y
  have hlimit : (face.lineLimit box : Int) = max 1 (box.height / face.lineHeight) :=
    Face.lineLimit_eq (by omega) (Int.lt_of_lt_of_le htotal hbox)
  have hcount : count = min lines.length (face.lineLimit box) := by omega
  have hlines : 1 ≤ lines.length := List.length_pos_iff.mpr (face.wrap_ne_nil _ _)
  have hsome : 1 ≤ count := by omega
  have htop : top = t.valign.topIn box (face.linesHeight count) := by rw [Face.linesHeight_eq hsome]
  refine ⟨?_, hsome, ?_, ?_, ?_⟩
  · dsimp only [y]
    rw [run_draw_of_multiline hmultiline hcontent hface,
      setting.wrapped_eq t.align t.valign rfl hcount.symm, htop]
  · intro k hk
    have hheight : face.linesHeight count ≤ box.height :=
      Face.linesHeight_le htotal hline hbox hsome (hcount.le.trans (Nat.min_le_right _ _))
    dsimp only [y]
    rw [htop]
    exact Face.line_inside t.valign (Int.lt_of_lt_of_le htotal hbox) (by omega) hheight hk
  · rw [hcount]
    exact isGreatest_min (fun n => (Face.le_lineLimit_iff (by omega)
      (Int.lt_of_lt_of_le htotal hbox) n).symm) _
  · rw [hcount]
    exact Face.exists_room htotal hline hbox hlines

/-- The world of a text in a font of cells of eight pixels, with a pixel between lines. -/
def page : Surroundings Id := { Widget.gallery with font := fun _ => some Face.terminal }

/-- A text of several lines at the bottom of its box. -/
def notice (text : String) : TextBox where
  font := "f"
  text := ⟨[.literal text]⟩
  valign := .bottom
  multiline := true

/-- Of three lines two are drawn in a box of twenty pixels, at its bottom. A third one would need
26. -/
theorem draws_lines_with_room_of_three :
    let E := Execution.immediate
    let t := notice "a\nb\nc"
    let look : Look := ⟨⟨0, 0, 11, 19⟩, .black, .transparent⟩
    let setting : Typesetting := ⟨Face.terminal, .black, look.box, page.tabStop⟩
    t.multiline = true ∧ E.run (t.content page) () = some ("a\nb\nc", ()) ∧
      E.run (page.font t.font) () = some (some Face.terminal, ()) ∧
      1 ≤ Face.terminal.totalHeight ∧ Face.terminal.totalHeight ≤ Face.terminal.lineHeight ∧
      Face.terminal.totalHeight ≤ look.box.height ∧
      E.run (t.draw page look 0) () =
        some (({ t with state := { content := some "a\nb\nc", loopReached := true } },
          [.text (setting.runAt 0 3 ['a']), .text (setting.runAt 0 12 ['b'])]), ()) := by
  intro E t look setting
  have hcontent : E.run (t.content page) () = some ("a\nb\nc", ()) := rfl
  have hface : E.run (page.font t.font) () = some (some Face.terminal, ()) := rfl
  have htotal : 1 ≤ Face.terminal.totalHeight := by decide
  have hline : Face.terminal.totalHeight ≤ Face.terminal.lineHeight := by decide
  have hbox : Face.terminal.totalHeight ≤ look.box.height := by decide
  have hlines : Face.terminal.wrap look.box.width "a\nb\nc".toList = [['a'], ['b'], ['c']] := by
    decide +kernel
  have hmultiline : t.multiline = true := rfl
  refine ⟨hmultiline, hcontent, hface, htotal, hline, hbox,
    (draws_lines_with_room hmultiline hcontent hface htotal hline hbox).1.trans ?_⟩
  rw [hlines]
  dsimp only [t, look, setting]
  rfl

/-- In a box of seventeen pixels only the first of two lines is drawn, though it would hold both:
one of nine pixels and the characters of the other, which are eight. -/
theorem leaves_out_line_with_room :
    let t := notice "a\nb"
    let look : Look := ⟨⟨0, 0, 11, 16⟩, .black, .transparent⟩
    let lines := Face.terminal.wrap look.box.width "a\nb".toList
    t.multiline = true ∧ 1 ≤ Face.terminal.totalHeight ∧
      Face.terminal.totalHeight ≤ Face.terminal.lineHeight ∧
      Face.terminal.totalHeight ≤ look.box.height ∧ lines.length = 2 ∧
      Face.terminal.totalHeight + (2 - 1) * Face.terminal.lineHeight ≤ look.box.height ∧
      (t.draw page look 0).2.length = 1 := by
  decide +kernel

end TextBox

end PanelSkin
