import PanelSkin.Proofs.Expr.Guard
import PanelSkin.Skin.Context
import PanelSkin.Widget.Draw

/-!
The shape of trees: a list starts with its item, and an item stands nowhere else. Drawing keeps
the shape, in the rows that a list makes as well, so that a list which is drawn always finds the
item that says how high its rows are.
-/

namespace PanelSkin

namespace Widget

/-- `w` is the tree `top`, or stands somewhere in it: among the children of a block or a list, or
in a row that a list has drawn. -/
inductive Within (w : Widget) : Widget → Prop where
  | here : Within w w
  | block {style : Style} {children : List Widget} {child : Widget} (hmem : child ∈ children)
      (hchild : Within w child) : Within w (.block style children)
  | list {style : Style} {children : List Widget} {rows : Option (List (List Widget))}
      {child : Widget} (hmem : child ∈ children) (hchild : Within w child) :
      Within w (.list style children rows)
  | row {style : Style} {children row : List Widget} {rows : Option (List (List Widget))}
      {child : Widget} (hrow : row ∈ rows.getD []) (hmem : child ∈ row)
      (hchild : Within w child) : Within w (.list style children rows)

/-- Some widgets, none of which is an item. -/
def NoItems (widgets : List Widget) : Prop := ∀ w ∈ widgets, w.isItem = false

/-- What stands directly in a widget stands in its order: an item first in a list, whose height is
that of the rows, and no other item. -/
def InOrder : Widget → Prop
  | .leaf .. => True
  | .block _ children => NoItems children
  | .list _ children rows =>
    (∃ style height others, children = .leaf style (.item height) :: others ∧
      itemHeight? children = some height ∧ NoItems others) ∧
    ∀ row ∈ rows.getD [], NoItems row

/-- Everything in a tree stands in its order. -/
def Shaped (top : Widget) : Prop := ∀ w : Widget, w.Within top → w.InOrder

variable {style : Style} {children others : List Widget} {rows : Option (List (List Widget))}

theorem shaped_leaf (style : Style) (kind : Leaf) : (Widget.leaf style kind).Shaped := by
  intro w hw
  cases hw
  trivial

theorem shaped_block : (Widget.block style children).Shaped ↔
    NoItems children ∧ ∀ child ∈ children, child.Shaped := by
  constructor
  · intro h
    exact ⟨h _ .here, fun child hmem w hw => h w (.block hmem hw)⟩
  · rintro ⟨hitems, hchildren⟩ w hw
    cases hw with
    | here => exact hitems
    | block hmem hchild => exact hchildren _ hmem w hchild

theorem shaped_list : (Widget.list style children rows).Shaped ↔
    (∃ style height others, children = .leaf style (.item height) :: others ∧ NoItems others ∧
      ∀ child ∈ others, child.Shaped) ∧
    ∀ row ∈ rows.getD [], NoItems row ∧ ∀ child ∈ row, child.Shaped := by
  constructor
  · intro h
    obtain ⟨⟨itemStyle, height, others, rfl, -, hothers⟩, hrows⟩ := h _ .here
    refine ⟨⟨itemStyle, height, others, rfl, hothers, ?_⟩, ?_⟩
    · intro child hmem w hw
      exact h w (.list (List.mem_cons_of_mem _ hmem) hw)
    · intro row hrow
      exact ⟨hrows row hrow, fun child hmem w hw => h w (.row hrow hmem hw)⟩
  · rintro ⟨⟨itemStyle, height, others, rfl, hothers, hchildren⟩, hrows⟩ w hw
    cases hw with
    | here =>
        exact ⟨⟨itemStyle, height, others, rfl, rfl, hothers⟩, fun row hrow => (hrows row hrow).1⟩
    | list hmem hchild =>
        rcases List.mem_cons.mp hmem with rfl | hmem
        · exact shaped_leaf itemStyle _ w hchild
        · exact hchildren _ hmem w hchild
    | row hrow hmem hchild => exact (hrows _ hrow).2 _ hmem w hchild

theorem eq_leaf_of_isItem {w : Widget} (h : w.isItem = true) :
    ∃ style height, w = .leaf style (.item height) := by
  unfold isItem at h
  split at h
  · exact ⟨_, _, rfl⟩
  · cases h

end Widget

namespace Widget

variable {s : Surroundings Evaluation} {now : Nat}

/-- What is drawn in place of a leaf is an item if the leaf was one. -/
theorem leaf_draw_isItem (style : Style) (kind : Leaf) (look : Look) :
    Run.Ensures (kind.draw s look now) fun drawn =>
      (Widget.leaf style drawn.1).isItem = (Widget.leaf style kind).isItem := by
  cases kind with
  | rectangle filled radius =>
      apply (Run.Ensures.anyway _).bind
      intro radius _
      split
      · exact .pure rfl
      · exact .pure rfl
  | ellipse filled arc => exact (Run.Ensures.anyway _).bind fun _ _ => .pure rfl
  | slope arc => exact (Run.Ensures.anyway _).bind fun _ _ => .pure rfl
  | picture box => exact (Run.Ensures.anyway _).bind fun _ _ => .pure rfl
  | progress bar => exact (Run.Ensures.anyway _).bind fun _ _ => .pure rfl
  | scrollbar bar => exact (Run.Ensures.anyway _).bind fun _ _ => .pure rfl
  | text box => exact (Run.Ensures.anyway _).bind fun _ _ => .pure rfl
  | button button => exact (Run.Ensures.anyway _).bind fun _ _ => .pure rfl
  | pixel => exact .pure rfl
  | line => exact .pure rfl
  | item height => exact .pure rfl

/-- Widgets without items, each in shape. -/
def ShapedRow (row : List Widget) : Prop := NoItems row ∧ ∀ child ∈ row, child.Shaped

/-- Drawing `w` keeps its shape, and an item stays an item. -/
def KeepsShape (w : Widget) : Prop :=
  ∀ (s : Surroundings Evaluation) (container : Rect) (now : Nat),
    (w.draw s container now).Ensures fun drawn => drawn.1.Shaped ∧ drawn.1.isItem = w.isItem

/-- What is drawn this way is in the shape of a row. -/
def DrawsShapedRow (drawing : Drawing Evaluation (List Widget)) : Prop :=
  ∀ (s : Surroundings Evaluation) (container : Rect) (now : Nat),
    (drawing s container now).Ensures fun drawn => ShapedRow drawn.1

theorem drawAll_shaped {widgets : List Widget} (hitems : NoItems widgets)
    (hkeeps : ∀ w ∈ widgets, w.KeepsShape) : DrawsShapedRow (drawAll widgets) := by
  intro s container now
  induction widgets with
  | nil =>
      rw [drawAll]
      exact .pure ⟨by simp [NoItems], by simp⟩
  | cons first rest ih =>
      obtain ⟨hfirst, hrest⟩ := List.forall_mem_cons.mp hkeeps
      obtain ⟨hitem, hitems⟩ := List.forall_mem_cons.mp hitems
      rw [drawAll]
      apply (hfirst s container now).bind
      rintro ⟨drawn, calls⟩ ⟨hshaped, hsame⟩
      apply (ih hitems hrest).bind
      rintro ⟨others, more⟩ ⟨hothers, hshapedOthers⟩
      refine .pure ⟨?_, ?_⟩
      · exact List.forall_mem_cons.mpr ⟨hsame.trans hitem, hothers⟩
      · exact List.forall_mem_cons.mpr ⟨hshaped, hshapedOthers⟩

theorem drawRows_shaped {fresh : Drawing Evaluation (List Widget)}
    {drawings : List (Drawing Evaluation (List Widget))} (hfresh : DrawsShapedRow fresh)
    (hdrawings : ∀ drawing ∈ drawings, DrawsShapedRow drawing) (box : Rect) (height : Int)
    (row count : Nat) :
    (drawRows fresh s box height now row count drawings).Ensures fun drawn =>
      ∀ row ∈ drawn.1, ShapedRow row := by
  induction count generalizing row drawings with
  | zero =>
      rw [drawRows]
      exact .pure (by simp)
  | succ count ih =>
      have hfirst : DrawsShapedRow (drawings.head?.getD fresh) := by
        cases drawings with
        | nil => exact hfresh
        | cons first rest => exact hdrawings first List.mem_cons_self
      have hrest := ih (fun drawing hmem => hdrawings drawing (List.mem_of_mem_tail hmem)) (row + 1)
      rw [drawRows]
      apply (hfirst _ _ _).bind
      rintro ⟨first, calls⟩ hshaped
      apply hrest.bind
      rintro ⟨others, more⟩ hothers
      apply Run.Ensures.pure
      exact List.forall_mem_cons.mpr ⟨hshaped, hothers⟩

/-- Drawing a tree keeps its shape. -/
theorem Shaped.keepsShape {w : Widget} (h : w.Shaped) : w.KeepsShape := by
  induction w with
  | leaf style kind =>
      intro s container now
      rw [draw]
      apply (Run.Ensures.anyway _).bind
      intro look _
      cases look with
      | none => exact .pure ⟨h, rfl⟩
      | some look =>
          apply (leaf_draw_isItem style kind look).bind
          rintro ⟨drawn, calls⟩ hitem
          exact .pure ⟨shaped_leaf style drawn, hitem⟩
  | block style children ih =>
      obtain ⟨hitems, hchildren⟩ := shaped_block.mp h
      have hdraws : DrawsShapedRow (drawAll children) :=
        drawAll_shaped hitems fun w hw => ih w hw (hchildren w hw)
      intro s container now
      rw [draw]
      apply (Run.Ensures.anyway _).bind
      intro look _
      cases look with
      | none => exact .pure ⟨h, rfl⟩
      | some look =>
          apply (hdraws _ _ _).bind
          rintro ⟨drawn, calls⟩ hdrawn
          exact .pure ⟨shaped_block.mpr hdrawn, rfl⟩
  | list style children rows ihchildren ihrows =>
      obtain ⟨⟨itemStyle, height, others, rfl, hitems, hothers⟩, hrows⟩ := shaped_list.mp h
      have hfresh : DrawsShapedRow (drawTemplate (.leaf itemStyle (.item height) :: others)) := by
        intro s container now
        rw [drawTemplate]
        refine drawAll_shaped hitems ?_ s container now
        intro w hw
        exact ihchildren w (List.mem_cons_of_mem _ hw) (hothers w hw)
      have hdrawings : ∀ drawing ∈ rowDrawings rows, DrawsShapedRow drawing := by
        rw [rowDrawings_eq_map]
        intro drawing hdrawing
        obtain ⟨row, hrow, rfl⟩ := List.mem_map.mp hdrawing
        obtain ⟨hrowItems, hrowShaped⟩ := hrows row hrow
        exact drawAll_shaped hrowItems fun w hw => ihrows row hrow w hw (hrowShaped w hw)
      intro s container now
      rw [draw]
      apply (Run.Ensures.anyway _).bind
      intro look _
      cases look with
      | none => exact .pure ⟨h, rfl⟩
      | some look =>
          apply (Run.Ensures.anyway _).bind
          intro pixels _
          apply (drawRows_shaped hfresh hdrawings look.box pixels 0 _).bind
          rintro ⟨drawn, calls⟩ hdrawn
          exact .pure ⟨shaped_list.mpr ⟨⟨itemStyle, height, others, rfl, hitems, hothers⟩, hdrawn⟩,
            rfl⟩

end Widget

end PanelSkin
