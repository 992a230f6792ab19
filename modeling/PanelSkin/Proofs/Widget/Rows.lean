import PanelSkin.Proofs.Widget.Settling
import PanelSkin.Proofs.Widget.Showing

/-!
The rows of a list are drawn each on its own. A row is what the template has become where it was
drawn alone, in the box of the row and with the tokens of the row, since the list last got that
row. So a row that stays keeps its state, whichever rows come and go.
-/

namespace PanelSkin

namespace Widget

/-! Rows at one moment. -/

/-- Where the rows of a list are, and how high each of them is. -/
structure RowLayout where
  box : Rect
  height : Int

namespace RowLayout

def count (l : RowLayout) : Nat := rowCount l.box l.height

/-- The box of a row. -/
def boxOf (l : RowLayout) (row : Nat) : Rect :=
  ⟨l.box.x1, l.box.y1 + row * l.height, l.box.x2, l.box.y1 + row * l.height + l.height - 1⟩

end RowLayout

theorem rowBox_eq (box : Rect) (height : Int) (row : Nat) :
    rowBox box height row = RowLayout.boxOf ⟨box, height⟩ row := by
  unfold rowBox RowLayout.boxOf Rect.offsetY
  rw [Rect.mk.injEq]
  dsimp only
  omega

/-- How the rows of a list are laid out at a showing; not at all if the list does not show, or has
no item. -/
def rowLayout? (style : Style) (children : List Widget) (s : Showing Id Rect) : Option RowLayout :=
  match style.look s.surroundings.toLookups s.place with
  | none => none
  | some look =>
    (itemHeight? children).map fun height =>
      ⟨look.box, height.evaluateWord s.surroundings.toLookups⟩

end Widget

/-- A row of a list at a showing. -/
def Showing.row {m : Type → Type} (s : Showing m Rect) (l : Widget.RowLayout) (k : Nat) :
    Showing m Rect :=
  ⟨s.surroundings.atRow k, l.boxOf k, s.now⟩

namespace Widget

/-- The rows that a list has. -/
def rowsOf : Widget → List (List Widget)
  | .list _ _ rows => rows.getD []
  | _ => []

theorem drawTemplate_eq {m : Type → Type} [Monad m] (children : List Widget) :
    (drawTemplate children : Drawing m (List Widget)) = drawAll children.tail := by
  cases children with
  | nil => rw [drawTemplate, List.tail_nil, drawAll]
  | cons item template => rw [drawTemplate, List.tail_cons]

section Draw

variable {world : Surroundings Id} {style : Style} {children : List Widget}

theorem drawRows_eq {α : Type} (fresh : Drawing Id α) (box : Rect) (height : Int)
    (now row count : Nat) (rows : List (Drawing Id α)) :
    drawRows fresh world box height now row count rows =
      let drawn k :=
        rows[k]?.getD fresh (world.atRow (row + k)) (rowBox box height (row + k)) now
      ((List.range count).map fun k => (drawn k).1,
        (List.range count).flatMap fun k => (drawn k).2) := by
  induction count generalizing row rows with
  | zero => rfl
  | succ count ih =>
      rw [drawRows_succ, ih, List.range_succ_eq_map, List.head?_eq_getElem?]
      simp only [List.getElem?_tail, List.map_cons, List.map_map, List.flatMap_cons,
        List.flatMap_map, Nat.add_zero, Nat.add_assoc, Nat.add_comm 1, Function.comp_def]

theorem drawAt_list_of_none {rows : Option (List (List Widget))} {s : Showing Id Rect}
    (h : rowLayout? style children s = none) :
    ∃ kept, (Widget.list style children rows).drawAt s = (.list style children kept, []) ∧
      kept.getD [] = rows.getD [] := by
  unfold rowLayout? at h
  cases hlook : style.look s.surroundings.toLookups s.place with
  | none => exact ⟨rows, draw_of_hidden hlook, rfl⟩
  | some look =>
      rw [hlook] at h
      have hitem := Option.map_eq_none_iff.mp h
      exact ⟨some (rows.getD []), draw_list_without_item hlook hitem, rfl⟩

theorem drawAt_list {rows : Option (List (List Widget))} {s : Showing Id Rect} {l : RowLayout}
    (h : rowLayout? style children s = some l) :
    (Widget.list style children rows).drawAt s =
      let drawn k := drawAllAt ((rows.getD [])[k]?.getD children.tail) (s.row l k)
      (.list style children (some ((List.range l.count).map fun k => (drawn k).1)),
        (List.range l.count).flatMap fun k => (drawn k).2) := by
  unfold rowLayout? at h
  cases hlook : style.look s.surroundings.toLookups s.place with
  | none =>
      rw [hlook] at h
      cases h
  | some look =>
      rw [hlook] at h
      obtain ⟨height, hitem, rfl⟩ := Option.map_eq_some_iff.mp h
      rw [drawAt, draw_list hlook hitem]
      simp only [drawnRows, drawRows_eq, rowDrawings_eq_map, drawTemplate_eq, List.getElem?_map,
        Option.getD_map, Nat.zero_add, rowBox_eq]
      rfl

end Draw

end Widget

namespace Occasion

variable {σ : Type} {valid : Cells → σ → Prop}

/-- A row of a list on an occasion. -/
def row (o : Occasion valid Rect) (l : Widget.RowLayout) (k : Nat) : Occasion valid Rect where
  world := o.world.atRow k
  surroundings := o.surroundings.atRow k
  answers := o.answers.atRow k
  place := l.boxOf k
  now := o.now

end Occasion

namespace Widget

section Run

variable {σ : Type} {valid : Cells → σ → Prop}

/-- The occasions on which a list drew some row since it last got that row; the latest comes
first. On those on which the list did not show, it drew none and kept all. -/
def rowOccasions (style : Style) (children : List Widget) (k : Nat) :
    List (Occasion valid Rect) → List (Occasion valid Rect)
  | [] => []
  | last :: earlier =>
    match rowLayout? style children last.inWorld with
    | none => rowOccasions style children k earlier
    | some l => if k < l.count then last.row l k :: rowOccasions style children k earlier else []

/-- Each row is what the template has become alone; the template itself where there is no row. -/
theorem rows_after (style : Style) (children : List Widget) (history : List (Occasion valid Rect)) :
    ∃ rows, afterShowings drawAt (.list style children none) (history.map Occasion.inWorld) =
        Widget.list style children rows ∧
      ∀ k : Nat, (rows.getD [])[k]?.getD children.tail = afterShowings drawAllAt children.tail
        ((rowOccasions style children k history).map Occasion.inWorld) := by
  induction history with
  | nil => exact ⟨none, rfl, fun k => rfl⟩
  | cons last earlier ih =>
      obtain ⟨rows, hbefore, hrows⟩ := ih
      have hafter : afterShowings drawAt (.list style children none)
          ((last :: earlier).map Occasion.inWorld) =
            ((Widget.list style children rows).drawAt last.inWorld).1 :=
        congrArg (fun before => (drawAt before last.inWorld).1) hbefore
      cases hlayout : rowLayout? style children last.inWorld with
      | none =>
          obtain ⟨kept, hdrawn, hkept⟩ := drawAt_list_of_none hlayout
          refine ⟨kept, hafter.trans (congrArg Prod.fst hdrawn), ?_⟩
          intro k
          rw [hkept, hrows k, rowOccasions, hlayout]
      | some l =>
          rw [drawAt_list hlayout] at hafter
          refine ⟨_, hafter, ?_⟩
          intro k
          rw [Option.getD_some, List.getElem?_map, rowOccasions, hlayout]
          by_cases hk : k < l.count
          · dsimp only
            rw [List.getElem?_range hk, if_pos hk, Option.map_some, Option.getD_some, hrows k]
            rfl
          · dsimp only
            rw [List.getElem?_eq_none (by simpa using hk), if_neg hk]
            rfl

/-- Every row of a list is what its template has become, drawn alone in the box and with the tokens
of the row, on the occasions since the list last got that row. So a row that stays goes on as it
was left, and the list draws what the rows draw one after the other. -/
theorem rows_run_alone (style : Style) (children : List Widget)
    (earlier : List (Occasion valid Rect)) (last : Occasion valid Rect) :
    let start := Widget.list style children none
    let before := afterShowings drawAt start (earlier.map Occasion.inWorld)
    let drawn := before.drawAt last.inWorld
    let alone k := afterShowings drawAllAt children.tail
      ((rowOccasions style children k earlier).map Occasion.inWorld)
    (steadily valid).rel drawn
        (afterShowings drawAt start (earlier.map Occasion.inRun) >>= (drawAt · last.inRun)) ∧
      (∀ (k : Nat) row, (rowsOf before)[k]? = some row → row = alone k) ∧
      match rowLayout? style children last.inWorld with
      | none => rowsOf drawn.1 = rowsOf before ∧ drawn.2 = []
      | some l =>
        (∀ k : Nat, (steadily valid).rel (drawAllAt (alone k) (last.row l k).inWorld)
          (afterShowings drawAllAt children.tail
            ((rowOccasions style children k earlier).map Occasion.inRun) >>=
              (drawAllAt · (last.row l k).inRun))) ∧
          rowsOf drawn.1 = (List.range l.count).map
            (fun k => (drawAllAt (alone k) (last.row l k).inWorld).1) ∧
          drawn.2 = (List.range l.count).flatMap
            (fun k => (drawAllAt (alone k) (last.row l k).inWorld).2) := by
  intro start before drawn alone
  have hrelated := Occasion.last_related (fun w o => o.widget_related w) start earlier last
  obtain ⟨rows, hbefore, hrows⟩ := rows_after style children earlier
  have hdrawn : drawn = (Widget.list style children rows).drawAt last.inWorld :=
    congrArg (fun w => drawAt w last.inWorld) hbefore
  refine ⟨hrelated, ?_, ?_⟩
  · intro k row hrow
    rw [show rowsOf before = rows.getD [] from congrArg rowsOf hbefore] at hrow
    rw [← show _ = alone k from hrows k, hrow, Option.getD_some]
  · cases hlayout : rowLayout? style children last.inWorld with
    | none =>
        obtain ⟨kept, hnothing, hkept⟩ := drawAt_list_of_none hlayout
        rw [hdrawn, hnothing]
        exact ⟨hkept.trans (congrArg rowsOf hbefore).symm, rfl⟩
    | some l =>
        refine ⟨?_, ?_⟩
        · intro k
          exact Occasion.last_related (fun widgets o => o.widgets_related widgets) children.tail
            (rowOccasions style children k earlier) (last.row l k)
        · rw [hdrawn, drawAt_list hlayout]
          simp only [hrows]
          exact ⟨rfl, rfl⟩

/-- A list whose second row is gone at 150 and back at 200: there the text starts anew, while that
of the first row has scrolled on. -/
example :
    let list := Widget.list {} [.leaf {} (.item (.number 8)), .leaf {} (.text
      { font := "f", text := ⟨[.literal "now playing"]⟩, scroll := .always })] none
    let shown (height : Int) (now : Nat) : Showing Id Rect :=
      ⟨gallery, ⟨0, 0, 29, height - 1⟩, now⟩
    let before := afterShowings drawAt list [shown 8 150, shown 16 100, shown 16 0]
    (before.drawAt (shown 16 200)).2.map (fun | .text run => run.skip | _ => 0) = [2, 0] := by
  decide +kernel

end Run

end Widget

end PanelSkin
