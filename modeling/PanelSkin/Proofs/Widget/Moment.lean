import PanelSkin.Widget.Draw
import PanelSkin.Widget.Update

/-!
Drawing at one moment. In surroundings that answer at once and change nothing, drawing and asking
whether to draw again are plain functions; here is what they give, case by case.
-/

namespace PanelSkin

variable {world : Surroundings Id}

namespace ScrollState

theorem showing_content (state : ScrollState) (content : String) (now : Nat) :
    (state.showing content now).content = some content := by
  unfold showing
  split
  · assumption
  · rfl

theorem showing_of_shown {state : ScrollState} {content : String} {now : Nat}
    (h : state.content = some content) : state.showing content now = state := if_pos h

end ScrollState

namespace TextBox

variable {t : TextBox} (look : Look) (now : Nat)

theorem needsUpdate_eq_false_iff {now : Nat} :
    t.needsUpdate world now = false ↔ t.state.content = some (t.content world) ∧
      (t.state.scrolling && t.state.isDue t.pause now) = false := by
  change (decide (t.state.content ≠ some (t.content world)) ||
    (t.state.scrolling && t.state.isDue t.pause now)) = false ↔ _
  simp

theorem draw_of_missing (hfont : world.font t.font = none) :
    t.draw world look now =
      ({ t with state := (t.state.showing (t.content world) now).atRest }, []) := by
  simp only [draw, bind, hfont]
  rfl

theorem compose_content (t : TextBox) (setting : Typesetting) (separator : String)
    (state : ScrollState) (content : String) (now : Nat) :
    (t.compose setting separator state content now).1.content = state.content := by
  unfold compose scrolled ScrollState.step
  dsimp only
  split
  · rfl
  · split
    · split
      · split
        · rfl
        · split
          · rfl
          · rfl
      · rfl
    · rfl

/-- What a text is drawn with. -/
def setting (world : Surroundings Id) (look : Look) (face : Face) : Typesetting :=
  { face, color := look.color, box := look.box, tabStop := world.tabStop }

theorem draw_of_there {face : Face} (hfont : world.font t.font = some face) :
    t.draw world look now =
      let composed := t.compose (setting world look face) world.separator
        (t.state.showing (t.content world) now) (t.content world) now
      ({ t with state := composed.1 }, look.backdrop ++ composed.2.map .text) := by
  simp only [draw, bind, hfont]
  rfl

theorem draw_font : (t.draw world look now).1.font = t.font := by
  cases hfont : world.font t.font with
  | none => rw [draw_of_missing look now hfont]
  | some face => rw [draw_of_there look now hfont]

end TextBox

namespace PlayState

/-- Whether the next frame is due. -/
def isDue (state : PlayState) (loop : LoopMode) (now : Nat) : Bool :=
  state.isPlaying loop && state.delay ≤ now - state.lastChange

theorem showing_path (state : PlayState) (path : String) (now : Nat) :
    (state.showing path now).path = some path := by
  unfold showing
  split
  · assumption
  · rfl

theorem showing_of_shown {state : PlayState} {path : String} {now : Nat}
    (h : state.path = some path) : state.showing path now = state := if_pos h

theorem ofFrames_frame (state : PlayState) (count : Nat) :
    (state.ofFrames count).frame < count ∨ (state.ofFrames count).frame = 0 := by
  unfold ofFrames
  dsimp only
  split
  · exact .inl ‹_›
  · exact .inr rfl

theorem next_spec (state : PlayState) (loop : LoopMode) (now : Nat)
    (h : state.frame < state.frameCount ∨ state.frame = 0) :
    let following := state.next loop now
    following.path = state.path ∧ following.frameCount = state.frameCount ∧
      following.lastChange = now ∧ (following.frame < state.frameCount ∨ following.frame = 0) := by
  unfold next
  dsimp only
  split
  · exact ⟨rfl, rfl, rfl, .inl ‹_›⟩
  · split
    · exact ⟨rfl, rfl, rfl, h⟩
    · exact ⟨rfl, rfl, rfl, .inr rfl⟩

/-- After a picture was drawn either a frame has just begun, or none is due. -/
theorem played_spec (state : PlayState) (loop : LoopMode) (p : Picture) (now : Nat) :
    let played := state.played loop p now
    played.path = state.path ∧ played.frameCount = p.frameCount ∧
      played.delay = p.delay played.frame ∧
      (played.frame < p.frameCount ∨ played.frame = 0) ∧
      (played.lastChange = now ∨ played.isDue loop now = false) := by
  have hframe := state.ofFrames_frame p.frameCount
  obtain ⟨hpath, hcount, hlast, hnext⟩ := (state.ofFrames p.frameCount).next_spec loop now hframe
  unfold played
  dsimp only
  split
  · exact ⟨hpath, hcount, rfl, hnext, .inl hlast⟩
  · refine ⟨rfl, rfl, rfl, hframe, .inr ?_⟩
    simp_all [isDue, isPlaying]

end PlayState

namespace PictureBox

variable {b : PictureBox} (look : Look) (now : Nat)

theorem needsUpdate_of_shown {now : Nat} (h : b.state.path = some (b.pathNow world)) :
    b.needsUpdate world now = b.state.isDue b.loop now := by
  simp only [needsUpdate, bind, ne_eq, h, not_true_eq_false, if_false]
  rfl

theorem needsUpdate_of_other {now : Nat} (h : b.state.path ≠ some (b.pathNow world)) :
    b.needsUpdate world now = !String.isEmpty (b.pathNow world) := by
  simp only [needsUpdate, bind, ne_eq, h, not_false_eq_true, if_true]
  rfl

theorem draw_of_empty (h : String.isEmpty (b.pathNow world) = true) :
    b.draw world look now = (b, []) := by
  simp only [draw, bind, if_pos h]
  rfl

theorem draw_of_missing (h : String.isEmpty (b.pathNow world) = false)
    (hpicture : world.picture (b.pathNow world) (b.scale.request look.box).1
      (b.scale.request look.box).2 = none) :
    b.draw world look now = ({ b with state := b.state.showing (b.pathNow world) now }, []) := by
  simp only [draw, bind, if_neg (ne_true_of_eq_false h), hpicture]
  rfl

theorem draw_of_there (h : String.isEmpty (b.pathNow world) = false) {picture : Picture}
    (hpicture : world.picture (b.pathNow world) (b.scale.request look.box).1
      (b.scale.request look.box).2 = some picture) :
    b.draw world look now =
      let state := (b.state.showing (b.pathNow world) now).played b.loop picture now
      ({ b with state }, [.picture look.box.x1 look.box.y1 picture state.frame look.box]) := by
  simp only [draw, bind, if_neg (ne_true_of_eq_false h), hpicture]
  rfl

theorem draw_path_scale :
    (b.draw world look now).1.path = b.path ∧ (b.draw world look now).1.scale = b.scale := by
  cases hempty : String.isEmpty (b.pathNow world) with
  | true =>
      rw [draw_of_empty look now hempty]
      exact ⟨rfl, rfl⟩
  | false =>
      cases hpicture : world.picture (b.pathNow world) (b.scale.request look.box).1
        (b.scale.request look.box).2 with
      | none =>
          rw [draw_of_missing look now hempty hpicture]
          exact ⟨rfl, rfl⟩
      | some p =>
          rw [draw_of_there look now hempty hpicture]
          exact ⟨rfl, rfl⟩

end PictureBox

theorem Leaf.draw_text (t : TextBox) (look : Look) (now : Nat) :
    (Leaf.text t).draw world look now =
      (.text (t.draw world look now).1, (t.draw world look now).2) := rfl

theorem Leaf.draw_picture (b : PictureBox) (look : Look) (now : Nat) :
    (Leaf.picture b).draw world look now =
      (.picture (b.draw world look now).1, (b.draw world look now).2) := rfl

/-- A widget has a look in a container if it is visible. -/
theorem Style.look_spec (world : Surroundings Id) (style : Style) (container : Rect) :
    (style.isVisible world.toLookups = false ∧ style.look world.toLookups container = none) ∨
      (style.isVisible world.toLookups = true ∧
        ∃ look, style.look world.toLookups container = some look) := by
  simp only [look, bind]
  cases style.isVisible world.toLookups with
  | false => exact .inl ⟨rfl, rfl⟩
  | true => exact .inr ⟨rfl, _, rfl⟩

namespace Widget

variable {style : Style} {container : Rect} {look : Look} {children : List Widget}
  {rows : Option (List (List Widget))} {now : Nat}

section Draw

theorem draw_of_hidden {w : Widget} (h : w.style.look world.toLookups container = none) :
    w.draw world container now = (w, []) := by
  cases w with
  | leaf style kind =>
      simp only [draw, bind]
      rw [show style.look world.toLookups container = none from h]
      rfl
  | block style children =>
      simp only [draw, bind]
      rw [show style.look world.toLookups container = none from h]
      rfl
  | list style children rows =>
      simp only [draw, bind]
      rw [show style.look world.toLookups container = none from h]
      rfl

theorem draw_leaf {kind : Leaf} (h : style.look world.toLookups container = some look) :
    (Widget.leaf style kind).draw world container now =
      (.leaf style (kind.draw world look now).1, (kind.draw world look now).2) := by
  simp only [draw, bind, h]
  rfl

theorem draw_block (h : style.look world.toLookups container = some look) :
    (Widget.block style children).draw world container now =
      (.block style (drawAll children world look.box now).1,
        look.backdrop ++ (drawAll children world look.box now).2) := by
  simp only [draw, bind, h]
  rfl

theorem draw_list_without_item (h : style.look world.toLookups container = some look)
    (hitem : itemHeight? children = none) :
    (Widget.list style children rows).draw world container now =
      (.list style children (some (rows.getD [])), []) := by
  simp only [draw, bind, h, hitem]
  rfl

/-- The rows of a list and what they draw, with items of some height. -/
def drawnRows (world : Surroundings Id) (look : Look) (now : Nat) (children : List Widget)
    (rows : Option (List (List Widget))) (height : Int) : List (List Widget) × List DrawCall :=
  drawRows (drawTemplate children) world look.box height now 0 (rowCount look.box height)
    (rowDrawings rows)

theorem draw_list (h : style.look world.toLookups container = some look) {height : Expr}
    (hitem : itemHeight? children = some height) :
    (Widget.list style children rows).draw world container now =
      let drawn := drawnRows world look now children rows (height.evaluateWord world.toLookups)
      (.list style children (some drawn.1), drawn.2) := by
  simp only [draw, bind, h, hitem]
  rfl

end Draw

theorem drawAll_cons (first : Widget) (rest : List Widget) :
    drawAll (first :: rest) world container now =
      ((first.draw world container now).1 :: (drawAll rest world container now).1,
        (first.draw world container now).2 ++ (drawAll rest world container now).2) := rfl

theorem drawRows_succ {α : Type} (fresh : Drawing Id α) (box : Rect) (height : Int)
    (row count : Nat) (rows : List (Drawing Id α)) :
    drawRows fresh world box height now row (count + 1) rows =
      ((rows.head?.getD fresh (world.atRow row) (rowBox box height row) now).1 ::
          (drawRows fresh world box height now (row + 1) count rows.tail).1,
        (rows.head?.getD fresh (world.atRow row) (rowBox box height row) now).2 ++
          (drawRows fresh world box height now (row + 1) count rows.tail).2) := rfl

/-- What holds of drawing a new row and of drawing each row that is there holds of drawing the
next one. -/
theorem nextDrawing_of_forall {α : Type} {P : Drawing Id α → Prop} {fresh : Drawing Id α}
    (hfresh : P fresh) {rows : List (Drawing Id α)} (hrows : ∀ drawing ∈ rows, P drawing) :
    P (rows.head?.getD fresh) := by
  cases rows with
  | nil => exact hfresh
  | cons first rest => exact hrows first List.mem_cons_self

theorem forall_mem_rowDrawings {P : Drawing Id (List Widget) → Prop} :
    (∀ drawing ∈ rowDrawings rows, P drawing) ↔ ∀ row ∈ rows.getD [], P (drawAll row) := by
  rw [rowDrawings_eq_map]
  exact List.forall_mem_map

section NeedsUpdate

theorem needsUpdate_of_hidden {w : Widget} (h : w.style.isVisible world.toLookups = false) :
    w.needsUpdate world now = false := by
  cases w with
  | leaf style kind => exact if_neg (ne_true_of_eq_false h)
  | block style children => exact if_neg (ne_true_of_eq_false h)
  | list style children rows => exact if_neg (ne_true_of_eq_false h)

theorem needsUpdate_leaf {kind : Leaf} (h : style.isVisible world.toLookups = true) :
    (Widget.leaf style kind).needsUpdate world now = kind.needsUpdate world now := if_pos h

theorem needsUpdate_block (h : style.isVisible world.toLookups = true) :
    (Widget.block style children).needsUpdate world now = anyNeedsUpdate world now children :=
  if_pos h

theorem needsUpdate_list (h : style.isVisible world.toLookups = true) :
    (Widget.list style children rows).needsUpdate world now = rowsNeedUpdate world now rows :=
  if_pos h

theorem anyNeedsUpdate_cons {first : Widget} {rest : List Widget} :
    anyNeedsUpdate world now (first :: rest) = false ↔
      first.needsUpdate world now = false ∧ anyNeedsUpdate world now rest = false := by
  simp only [anyNeedsUpdate, bind]
  cases first.needsUpdate world now with
  | false => simp
  | true => simp [pure]

theorem rowsNeedUpdateFrom_cons {first : List Widget} {rest : List (List Widget)} {row : Nat} :
    rowsNeedUpdateFrom world now row (first :: rest) = false ↔
      anyNeedsUpdate (world.atRow row) now first = false ∧
        rowsNeedUpdateFrom world now (row + 1) rest = false := by
  simp only [rowsNeedUpdateFrom, bind]
  cases anyNeedsUpdate (world.atRow row) now first with
  | false => simp
  | true => simp [pure]

end NeedsUpdate

end Widget

end PanelSkin
