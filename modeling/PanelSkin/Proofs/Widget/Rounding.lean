import PanelSkin.Proofs.Expr.Execution
import PanelSkin.Proofs.Graphics.Rounded
import PanelSkin.Proofs.Widget.Redraw

/-!
Widgets with rounded corners: buttons, and rectangles for which a radius is given. Their box is what
their geometry makes of it, and may be turned over. As long as its corners have not passed each
other by more than two pixels the limits of the radius are in order, and a box without pixels shows
nothing, as with the other shapes. Beyond that the drawing breaks off.
-/

namespace PanelSkin

namespace DrawCall

variable {r bounds : Rect} {radius : Int} {color : Color} {filled : Bool}

theorem completes_roundRectangle_iff :
    (roundRectangle r color filled radius).completes bounds = true ↔
      r.x1 ≤ r.x2 + 2 ∧ r.y1 ≤ r.y2 + 2 := by
  rw [← Rect.radiusLimit_nonneg_iff]
  change (r.effectiveRadius? radius).isSome = true ↔ _
  unfold Rect.effectiveRadius?
  split
  · rename_i hlimit
    exact iff_of_true rfl hlimit
  · rename_i hlimit
    exact iff_of_false Bool.false_ne_true hlimit

/-- A rectangle without pixels shows nothing, whatever shape it is for. -/
theorem dots_of_isEmpty (hempty : r.isEmpty = true) (color : Color) (filled : Bool)
    (radius quadrant : Int) (bounds : Rect) :
    (roundRectangle r color filled radius).dots bounds = [] ∧
      (rectangle r color filled).dots bounds = [] ∧
      (ellipse r color filled quadrant).dots bounds = [] := by
  have hrectangle : r.drawn filled bounds = [] := if_pos hempty
  have hellipse : r.drawnEllipse filled quadrant bounds = [] := if_pos hempty
  have hrounded := Rect.drawnRounded_of_isEmpty hempty filled radius bounds
  simp only [dots, hrectangle, hellipse, hrounded, List.map_nil, and_self]

end DrawCall

/-- The radius that is drawn where the limits are in order lies between them, and if there are
pixels to test, the test fits into words. -/
theorem Rect.effectiveRadius?_spec {r : Rect} (hx : r.x1 ≤ r.x2 + 2) (hy : r.y1 ≤ r.y2 + 2)
    (radius : Int) :
    ∃ n, r.effectiveRadius? radius = some n ∧ 0 ≤ n ∧ n ≤ r.radiusLimit ∧
      (r.InWords → r.isEmpty = false → ∀ x y, r.roundedInWords n x y = r.rounded n x y) := by
  have hlimit := radiusLimit_nonneg_iff.mpr ⟨hx, hy⟩
  refine ⟨r.heldRadius radius, effectiveRadius?_eq hlimit radius, ?_, ?_, ?_⟩
  · exact Int.le_max_left _ _
  · exact Int.max_le.mpr ⟨hlimit, Int.min_le_right _ _⟩
  · exact fun hwords hsome => roundedInWords_eq hwords hsome radius

/-- The rectangle that is drawn for a radius. -/
def Look.rectangle (look : Look) (filled : Bool) (radius : Int) : DrawCall :=
  if 0 < radius then .roundRectangle look.box look.color filled radius
  else .rectangle look.box look.color filled

theorem Look.completes_rectangle_iff {look : Look} {filled : Bool} {radius : Int} {bounds : Rect} :
    (look.rectangle filled radius).completes bounds = true ↔
      (0 < radius → look.box.x1 ≤ look.box.x2 + 2 ∧ look.box.y1 ≤ look.box.y2 + 2) := by
  unfold Look.rectangle
  split
  · rename_i hpositive
    rw [DrawCall.completes_roundRectangle_iff, imp_iff_right hpositive]
  · rename_i hnone
    exact iff_of_true rfl fun hpositive => absurd hpositive hnone

namespace Button

section Calls

variable {m : Type → Type}

/-- What is drawn of a button for what it has looked up. -/
def calls (s : Surroundings m) (look : Look) : Int × Option (Face × String) → List DrawCall
  | (radius, none) => frame look radius
  | (radius, some (face, label)) =>
    let setting : Typesetting :=
      { face, color := look.color, box := inner look.box, tabStop := s.tabStop }
    let y := VAlign.middle.topIn setting.box face.totalHeight
    frame look radius ++ (setting.line .center y label.toList).map .text

theorem completes_frame_iff {look : Look} {radius : Int} {bounds : Rect} :
    (∀ call ∈ frame look radius, call.completes bounds = true) ↔
      look.box.x1 ≤ look.box.x2 + 2 ∧ look.box.y1 ≤ look.box.y2 + 2 := by
  unfold frame
  split
  · rw [List.nil_append, List.forall_mem_singleton, DrawCall.completes_roundRectangle_iff]
  · rw [List.forall_mem_append, List.forall_mem_singleton, List.forall_mem_singleton,
      DrawCall.completes_roundRectangle_iff, DrawCall.completes_roundRectangle_iff, and_self_iff]

/-- What is inside the frame does not break off. -/
theorem completes_calls_iff (s : Surroundings m) (look : Look)
    (found : Int × Option (Face × String)) (bounds : Rect) :
    (∀ call ∈ calls s look found, call.completes bounds = true) ↔
      look.box.x1 ≤ look.box.x2 + 2 ∧ look.box.y1 ≤ look.box.y2 + 2 := by
  obtain ⟨radius, label?⟩ := found
  cases label? with
  | none => exact completes_frame_iff
  | some found =>
      have htexts (runs : List TextRun) :
          ∀ call ∈ runs.map DrawCall.text, call.completes bounds = true := by
        intro call hcall
        obtain ⟨run, -, rfl⟩ := List.mem_map.mp hcall
        rfl
      dsimp only [calls]
      rw [List.forall_mem_append, completes_frame_iff]
      exact and_iff_left (htexts _)

end Calls

end Button

section Draw

variable {m : Type → Type} [Monad m] {σ : Type} {E : Execution m σ}

theorem run_drawRectangle (filled : Bool) (radius : Expr) (s : Surroundings m) (look : Look)
    (now : Nat) (st : σ) :
    E.run ((Leaf.rectangle filled radius).draw s look now) st
      = (E.run (radius.evaluateWord s.toLookups) st).map
        (Prod.map (fun n => (.rectangle filled radius, [look.rectangle filled n])) id) := by
  rw [← E.run_bind_pure]
  refine congrArg (E.run · st) (congrArg _ (funext fun n => ?_))
  unfold Look.rectangle
  split <;> rfl

namespace Button

/-- What a button looks up: its radius, and its label if there is a font to write it in. -/
def lookUp (s : Surroundings m) (b : Button) : m (Int × Option (Face × String)) := do
  let radius ← b.radius.evaluateWord s.toLookups
  match ← s.font b.font with
  | none => return (radius, none)
  | some face => return (radius, some (face, (← b.text.evaluate s.toLookups).asText))

theorem run_draw (s : Surroundings m) (b : Button) (look : Look) (st : σ) :
    E.run (b.draw s look) st = (E.run (b.lookUp s) st).map (Prod.map (calls s look) id) := by
  unfold lookUp draw
  simp only [E.run_bind]
  cases E.run (b.radius.evaluateWord s.toLookups) st with
  | none => rfl
  | some radius =>
      dsimp only [Option.bind_some]
      cases E.run (s.font b.font) radius.2 with
      | none => rfl
      | some font =>
          obtain ⟨face?, st'⟩ := font
          cases face? with
          | none => simp [E.run_pure, calls]
          | some face =>
              dsimp only [Option.bind_some]
              simp only [E.run_bind]
              cases E.run (b.text.evaluate s.toLookups) st' with
              | none => rfl
              | some label => simp [E.run_pure, calls]

end Button

/-- What is drawn of rectangles and buttons completes, with whatever radius, if the corners of the
box have not passed each other by more than two pixels, and for a button and a positive radius only
then. The limits of the radius are in order in such a box, and one without pixels shows nothing, as
with a rectangle or an ellipse. -/
theorem corners_complete_unless_turned_over (E : Execution m σ) (bounds : Rect) :
    (∀ (r : Rect) (radius quadrant : Int) (color : Color) (filled : Bool),
      let rounded := DrawCall.roundRectangle r color filled radius
      (rounded.completes bounds = true ↔ r.x1 ≤ r.x2 + 2 ∧ r.y1 ≤ r.y2 + 2) ∧
        (r.x1 ≤ r.x2 + 2 → r.y1 ≤ r.y2 + 2 → 0 ≤ (min r.width r.height).tdiv 2 ∧
          ∃ n, r.effectiveRadius? radius = some n ∧ 0 ≤ n ∧ n ≤ r.radiusLimit ∧
            (r.InWords → r.isEmpty = false →
              ∀ x y, r.roundedInWords n x y = r.rounded n x y)) ∧
        (r.isEmpty = true → rounded.dots bounds = [] ∧
          (DrawCall.rectangle r color filled).dots bounds = [] ∧
          (DrawCall.ellipse r color filled quadrant).dots bounds = [])) ∧
    ∀ (s : Surroundings m) (look : Look) (st : σ),
      (∀ (filled : Bool) (radius : Expr) (now : Nat),
        E.run ((Leaf.rectangle filled radius).draw s look now) st
            = (E.run (radius.evaluateWord s.toLookups) st).map
              (Prod.map (fun n => (.rectangle filled radius, [look.rectangle filled n])) id) ∧
          ∀ n, (look.rectangle filled n).completes bounds = true ↔
            (0 < n → look.box.x1 ≤ look.box.x2 + 2 ∧ look.box.y1 ≤ look.box.y2 + 2)) ∧
      ∀ b : Button,
        E.run (b.draw s look) st = (E.run (b.lookUp s) st).map (Prod.map (Button.calls s look) id) ∧
          ∀ found, (∀ call ∈ Button.calls s look found, call.completes bounds = true) ↔
            look.box.x1 ≤ look.box.x2 + 2 ∧ look.box.y1 ≤ look.box.y2 + 2 := by
  refine ⟨fun r radius quadrant color filled => ⟨DrawCall.completes_roundRectangle_iff, ?_, ?_⟩,
    fun s look st => ⟨fun filled radius now => ⟨run_drawRectangle filled radius s look now st, ?_⟩,
      fun b => ⟨b.run_draw s look st, fun found => Button.completes_calls_iff s look found bounds⟩⟩⟩
  · intro hx hy
    exact ⟨Rect.radiusLimit_nonneg_iff.mpr ⟨hx, hy⟩, Rect.effectiveRadius?_spec hx hy radius⟩
  · exact fun hempty => DrawCall.dots_of_isEmpty hempty color filled radius quadrant bounds
  · exact fun n => Look.completes_rectangle_iff

end Draw

/-- A button in a box whose corners have passed each other by two columns, and a rectangle with
rounded corners that has its pixels. -/
theorem corners_complete_unless_turned_over_by_two :
    let E := Execution.immediate
    let world := Widget.playing 2
    let bounds : Rect := ⟨0, 0, 15, 7⟩
    let look : Look := ⟨⟨4, 0, 2, 7⟩, .black, .transparent⟩
    let b : Button := { font := "f", text := ⟨[.token { name := "volume", id := 1 }]⟩ }
    look.box.x1 ≤ look.box.x2 + 2 ∧ look.box.y1 ≤ look.box.y2 + 2 ∧ look.box.isEmpty = true ∧
      (∃ found calls, E.run (b.lookUp world) () = some (found, ()) ∧
        E.run (b.draw world look) () = some (calls, ()) ∧ calls.length = 2 ∧
        ∀ call ∈ calls, call.completes bounds = true) ∧
      (DrawCall.roundRectangle look.box .black false 3).dots bounds = [] ∧
      ∃ n, (⟨0, 0, 15, 7⟩ : Rect).effectiveRadius? 9 = some n ∧ n ≤ 4 := by
  intro E world bounds look b
  obtain ⟨hcorners, hwidgets⟩ := corners_complete_unless_turned_over E bounds
  have hx : look.box.x1 ≤ look.box.x2 + 2 := by decide
  have hy : look.box.y1 ≤ look.box.y2 + 2 := by decide
  have hempty : look.box.isEmpty = true := by decide
  obtain ⟨-, hbutton⟩ := hwidgets world look ()
  obtain ⟨hrun, hcompletes⟩ := hbutton b
  obtain ⟨-, -, hnothing⟩ := hcorners look.box 3 0 .black false
  obtain ⟨-, hroom, -⟩ := hcorners ⟨0, 0, 15, 7⟩ 9 0 .black false
  obtain ⟨-, n, hn, -, hle, -⟩ := hroom (by decide) (by decide)
  exact ⟨hx, hy, hempty, ⟨_, _, rfl, hrun, by decide +kernel, (hcompletes _).mpr ⟨hx, hy⟩⟩,
    (hnothing hempty).1, n, hn, hle⟩

/-- A button two pixels less than nothing wide. Its corners have passed each other by three columns,
and it cannot be drawn, while the other shapes show nothing in its box. -/
theorem corners_break_off_turned_over :
    let world := Widget.playing 2
    let bounds : Rect := ⟨0, 0, 15, 7⟩
    let style : Style := { geometry := { x2 := .length (.number (-2)) } }
    let box : Rect := ⟨0, 0, -3, 7⟩
    style.geometry.resolve world.toLookups bounds = box ∧ box.InWords ∧ box.isEmpty = true ∧
      ¬ 0 ≤ (min box.width box.height).tdiv 2 ∧ box.effectiveRadius? 0 = none ∧
      ((Widget.leaf style (.button { font := "" })).draw world bounds 0).2
        = [.roundRectangle box .black false 0] ∧
      (DrawCall.roundRectangle box .black false 0).completes bounds = false ∧
      (DrawCall.rectangle box .black false).completes bounds = true ∧
      (DrawCall.rectangle box .black false).dots bounds = [] ∧
      (DrawCall.ellipse box .black false 0).completes bounds = true ∧
      (DrawCall.ellipse box .black false 0).dots bounds = [] := by
  refine ⟨rfl, ⟨?_, ?_, ?_, ?_⟩, ?_, ?_, ?_, rfl, ?_, rfl, rfl, ?_, rfl⟩ <;> decide

end PanelSkin
