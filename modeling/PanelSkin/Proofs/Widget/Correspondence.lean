import Mathlib.Data.List.Forall2
import PanelSkin.Proofs.Expr.Correspondence
import PanelSkin.Widget.Draw
import PanelSkin.Widget.Update

/-!
Drawing one tree in two settings. Like expressions, widgets reach everything outside of them
through their surroundings, so a relation in which the lookups of two surroundings stand holds
between drawing in the one and in the other, and between asking there whether to draw again.
-/

namespace PanelSkin

/-- Surroundings whose answers are fixed, in any monad. -/
def Surroundings.fixed {m : Type → Type} [Monad m] (world : Surroundings Id) : Surroundings m where
  toLookups := .fixed world.toLookups
  font id := pure (world.font id)
  picture path width height := pure (world.picture path width height)
  rowToken t row := pure (world.rowToken t row)
  tabStop := world.tabStop
  separator := world.separator

namespace Correspondence

variable {m n : Type → Type} [Monad m] [Monad n] [LawfulMonad m] [LawfulMonad n]

/-- Two surroundings that agree on what is known at once, and stand in the relation otherwise. -/
structure Surroundings (R : Correspondence m n) (s : PanelSkin.Surroundings m)
    (r : PanelSkin.Surroundings n) : Prop extends R.Lookups s.toLookups r.toLookups where
  font : ∀ id, R.rel (s.font id) (r.font id)
  picture : ∀ path width height, R.rel (s.picture path width height) (r.picture path width height)
  rowToken : ∀ t row, R.rel (s.rowToken t row) (r.rowToken t row)
  tabStop : s.tabStop = r.tabStop
  separator : s.separator = r.separator

variable {R : Correspondence m n}

theorem Surroundings.fixed (world : PanelSkin.Surroundings Id) :
    R.Surroundings (PanelSkin.Surroundings.fixed world) (PanelSkin.Surroundings.fixed world) where
  toLookups := Lookups.fixed world.toLookups
  font _ := R.rel_pure _
  picture _ _ _ := R.rel_pure _
  rowToken _ _ := R.rel_pure _
  tabStop := rfl
  separator := rfl

section Look

variable {l : PanelSkin.Lookups m} {k : PanelSkin.Lookups n}

theorem Lookups.evaluateWord (h : R.Lookups l k) (e : Expr) :
    R.rel (e.evaluateWord l) (e.evaluateWord k) :=
  R.rel_bind (h.evaluateNumber e) fun _ => R.rel_pure _

theorem Lookups.coordinate (h : R.Lookups l k) (e : Expr) :
    R.rel (Geometry.coordinate l e) (Geometry.coordinate k e) :=
  R.rel_bind (h.evaluateNumber e) fun _ => R.rel_pure _

theorem Lookups.span (h : R.Lookups l k) (start origin size : Int) (span : Span) :
    R.rel (Geometry.Span.resolve l start origin size span)
      (Geometry.Span.resolve k start origin size span) := by
  cases span with
  | edge e => exact R.rel_bind (h.coordinate e) fun _ => R.rel_pure _
  | length e => exact R.rel_bind (h.coordinate e) fun _ => R.rel_pure _

theorem Lookups.geometry (h : R.Lookups l k) (g : Geometry) (container : Rect) :
    R.rel (g.resolve l container) (g.resolve k container) := by
  apply R.rel_bind (h.coordinate g.x1)
  intro x1
  apply R.rel_bind (h.coordinate g.y1)
  intro y1
  apply R.rel_bind (h.span _ _ _ g.x2)
  intro x2
  apply R.rel_bind (h.span _ _ _ g.y2)
  exact fun y2 => R.rel_pure _

theorem Lookups.paint (h : R.Lookups l k) (fallback : Color) (paint : Paint) :
    R.rel (paint.resolve l fallback) (paint.resolve k fallback) := by
  cases paint with
  | fixed color => exact R.rel_pure _
  | reference id => exact R.rel_bind (h.variableValue id) fun _ => R.rel_pure _

theorem Lookups.isVisible (h : R.Lookups l k) (style : Style) :
    R.rel (style.isVisible l) (style.isVisible k) := by
  unfold Style.isVisible
  cases style.condition with
  | none => exact R.rel_pure _
  | some condition => exact h.evaluateBool condition

theorem Lookups.look (h : R.Lookups l k) (style : Style) (container : Rect) :
    R.rel (style.look l container) (style.look k container) := by
  apply R.rel_bind (h.isVisible style)
  intro visible
  cases visible with
  | false => exact R.rel_pure _
  | true =>
      apply R.rel_bind (h.geometry style.geometry container)
      intro box
      apply R.rel_bind (h.paint _ style.color)
      intro color
      apply R.rel_bind (h.paint _ style.background)
      exact fun background => R.rel_pure _

theorem Lookups.drawProgress (h : R.Lookups l k) (b : Bar) (look : Look) :
    R.rel (b.drawProgress l look) (b.drawProgress k look) := by
  apply R.rel_bind (h.evaluateNumber b.total)
  intro total
  dsimp only
  split
  · exact R.rel_pure _
  · apply R.rel_bind (h.evaluateNumber b.current)
    intro current
    cases b.peak with
    | none => exact R.rel_pure _
    | some peak => exact R.rel_bind (h.evaluateNumber peak) fun _ => R.rel_pure _

theorem Lookups.drawScrollbar (h : R.Lookups l k) (b : Bar) (look : Look) :
    R.rel (b.drawScrollbar l look) (b.drawScrollbar k look) := by
  unfold Bar.drawScrollbar
  split
  · exact R.rel_pure _
  · apply R.rel_bind (h.evaluateNumber b.total)
    intro total
    apply R.rel_bind (h.evaluateNumber b.current)
    exact fun current => R.rel_pure _

end Look

section Leaves

variable {s : PanelSkin.Surroundings m} {r : PanelSkin.Surroundings n}

theorem Surroundings.atRow (h : R.Surroundings s r) (row : Nat) :
    R.Surroundings (s.atRow row) (r.atRow row) :=
  { h with token := fun t => h.rowToken t row }

theorem Surroundings.drawPicture (h : R.Surroundings s r) (b : PictureBox) (look : Look)
    (now : Nat) : R.rel (b.draw s look now) (b.draw r look now) := by
  apply R.rel_bind (R.rel_bind (h.template b.path) fun _ => R.rel_pure _)
  intro path
  split
  · exact R.rel_pure _
  · apply R.rel_bind (h.picture _ _ _)
    intro picture
    cases picture with
    | none => exact R.rel_pure _
    | some picture => exact R.rel_pure _

theorem Surroundings.pictureNeedsUpdate (h : R.Surroundings s r) (b : PictureBox) (now : Nat) :
    R.rel (b.needsUpdate s now) (b.needsUpdate r now) := by
  apply R.rel_bind (R.rel_bind (h.template b.path) fun _ => R.rel_pure _)
  intro path
  split
  · exact R.rel_pure _
  · exact R.rel_pure _

theorem Surroundings.drawText (h : R.Surroundings s r) (t : TextBox) (look : Look) (now : Nat) :
    R.rel (t.draw s look now) (t.draw r look now) := by
  apply R.rel_bind (R.rel_bind (h.template t.text) fun _ => R.rel_pure _)
  intro content
  apply R.rel_bind (h.font t.font)
  intro face
  rw [h.tabStop, h.separator]
  cases face with
  | none => exact R.rel_pure _
  | some face => exact R.rel_pure _

theorem Surroundings.textNeedsUpdate (h : R.Surroundings s r) (t : TextBox) (now : Nat) :
    R.rel (t.needsUpdate s now) (t.needsUpdate r now) :=
  R.rel_bind (R.rel_bind (h.template t.text) fun _ => R.rel_pure _) fun _ => R.rel_pure _

theorem Surroundings.drawButton (h : R.Surroundings s r) (b : Button) (look : Look) :
    R.rel (b.draw s look) (b.draw r look) := by
  apply R.rel_bind (h.evaluateWord b.radius)
  intro radius
  apply R.rel_bind (h.font b.font)
  intro face
  rw [h.tabStop]
  cases face with
  | none => exact R.rel_pure _
  | some face => exact R.rel_bind (h.template b.text) fun _ => R.rel_pure _

theorem Surroundings.drawLeaf (h : R.Surroundings s r) (leaf : Leaf) (look : Look) (now : Nat) :
    R.rel (leaf.draw s look now) (leaf.draw r look now) := by
  cases leaf with
  | pixel => exact R.rel_pure _
  | line => exact R.rel_pure _
  | rectangle filled radius =>
      apply R.rel_bind (h.evaluateWord radius)
      intro radius
      split
      · exact R.rel_pure _
      · exact R.rel_pure _
  | ellipse filled arc => exact R.rel_bind (h.evaluateWord arc) fun _ => R.rel_pure _
  | slope arc => exact R.rel_bind (h.evaluateWord arc) fun _ => R.rel_pure _
  | picture box => exact R.rel_bind (h.drawPicture box look now) fun _ => R.rel_pure _
  | progress bar => exact R.rel_bind (h.drawProgress bar look) fun _ => R.rel_pure _
  | scrollbar bar => exact R.rel_bind (h.drawScrollbar bar look) fun _ => R.rel_pure _
  | text box => exact R.rel_bind (h.drawText box look now) fun _ => R.rel_pure _
  | button button => exact R.rel_bind (h.drawButton button look) fun _ => R.rel_pure _
  | item height => exact R.rel_pure _

theorem Surroundings.leafNeedsUpdate (h : R.Surroundings s r) (leaf : Leaf) (now : Nat) :
    R.rel (leaf.needsUpdate s now) (leaf.needsUpdate r now) := by
  cases leaf with
  | picture box => exact h.pictureNeedsUpdate box now
  | text box => exact h.textNeedsUpdate box now
  | _ => exact R.rel_pure _

end Leaves

/-- Drawings of one thing that stand in the relation wherever their surroundings do. -/
def Drawings (R : Correspondence m n) {α : Type} (d : Drawing m α) (e : Drawing n α) : Prop :=
  ∀ s r, R.Surroundings s r → ∀ container now, R.rel (d s container now) (e r container now)

theorem drawRows_related {α : Type} {fresh : Drawing m α} {fresh' : Drawing n α}
    (hfresh : R.Drawings fresh fresh') {s : PanelSkin.Surroundings m}
    {r : PanelSkin.Surroundings n} (h : R.Surroundings s r) (box : Rect) (height : Int)
    (now row count : Nat) {rows : List (Drawing m α)} {rows' : List (Drawing n α)}
    (hrows : List.Forall₂ R.Drawings rows rows') :
    R.rel (drawRows fresh s box height now row count rows)
      (drawRows fresh' r box height now row count rows') := by
  induction count generalizing row rows rows' with
  | zero => exact R.rel_pure _
  | succ count ih =>
      simp only [drawRows]
      cases hrows with
      | nil =>
          apply R.rel_bind (hfresh _ _ (h.atRow row) _ now)
          rintro ⟨first, calls⟩
          apply R.rel_bind (ih (row + 1) .nil)
          exact fun _ => R.rel_pure _
      | cons hfirst hrest =>
          apply R.rel_bind (hfirst _ _ (h.atRow row) _ now)
          rintro ⟨first, calls⟩
          apply R.rel_bind (ih (row + 1) hrest)
          exact fun _ => R.rel_pure _

theorem drawAll_related {children : List Widget}
    (hchildren : ∀ child ∈ children, R.Drawings child.draw child.draw) :
    R.Drawings (Widget.drawAll children) (Widget.drawAll children) := by
  intro s r h container now
  induction children with
  | nil => exact R.rel_pure _
  | cons first rest ih =>
      simp only [List.forall_mem_cons] at hchildren
      simp only [Widget.drawAll]
      apply R.rel_bind (hchildren.1 s r h container now)
      rintro ⟨first, calls⟩
      exact R.rel_bind (ih hchildren.2) fun _ => R.rel_pure _

theorem drawTemplate_related {children : List Widget}
    (hchildren : ∀ child ∈ children, R.Drawings child.draw child.draw) :
    R.Drawings (Widget.drawTemplate children) (Widget.drawTemplate children) := by
  cases children with
  | nil => exact fun s r h container now => R.rel_pure _
  | cons item template =>
      exact drawAll_related fun child hchild => hchildren child (List.mem_cons_of_mem _ hchild)

theorem rowDrawings_related {rows : Option (List (List Widget))}
    (hrows : ∀ row ∈ rows.getD [], ∀ child ∈ row, R.Drawings child.draw child.draw) :
    List.Forall₂ R.Drawings (Widget.rowDrawings rows) (Widget.rowDrawings rows) := by
  rw [Widget.rowDrawings_eq_map, Widget.rowDrawings_eq_map, List.forall₂_map_left_iff,
    List.forall₂_map_right_iff, List.forall₂_same]
  exact fun row hrow => drawAll_related (hrows row hrow)

theorem draw_related (w : Widget) : R.Drawings w.draw w.draw := by
  induction w with
  | leaf style kind =>
      intro s r h container now
      simp only [Widget.draw]
      apply R.rel_bind (h.look style container)
      intro look
      cases look with
      | none => exact R.rel_pure _
      | some look => exact R.rel_bind (h.drawLeaf kind look now) fun _ => R.rel_pure _
  | block style children ih =>
      intro s r h container now
      simp only [Widget.draw]
      apply R.rel_bind (h.look style container)
      intro look
      cases look with
      | none => exact R.rel_pure _
      | some look => exact R.rel_bind (drawAll_related ih s r h _ now) fun _ => R.rel_pure _
  | list style children rows ih ihRows =>
      intro s r h container now
      simp only [Widget.draw]
      apply R.rel_bind (h.look style container)
      intro look
      cases look with
      | none => exact R.rel_pure _
      | some look =>
          dsimp only
          cases Widget.itemHeight? children with
          | none => exact R.rel_pure _
          | some height =>
              apply R.rel_bind (h.evaluateWord height)
              intro height
              apply R.rel_bind (drawRows_related (drawTemplate_related ih) h _ _ now 0 _
                (rowDrawings_related ihRows))
              exact fun _ => R.rel_pure _

theorem anyNeedsUpdate_related {children : List Widget} {now : Nat}
    (hchildren : ∀ child ∈ children, ∀ s r, R.Surroundings s r →
      R.rel (child.needsUpdate s now) (child.needsUpdate r now))
    {s : PanelSkin.Surroundings m} {r : PanelSkin.Surroundings n} (h : R.Surroundings s r) :
    R.rel (Widget.anyNeedsUpdate s now children) (Widget.anyNeedsUpdate r now children) := by
  induction children with
  | nil => exact R.rel_pure _
  | cons first rest ih =>
      simp only [List.forall_mem_cons] at hchildren
      simp only [Widget.anyNeedsUpdate]
      apply R.rel_bind (hchildren.1 s r h)
      intro needed
      split
      · exact R.rel_pure _
      · exact ih hchildren.2

theorem rowsNeedUpdate_related {rows : Option (List (List Widget))} {now : Nat}
    (hrows : ∀ row ∈ rows.getD [], ∀ child ∈ row, ∀ s r, R.Surroundings s r →
      R.rel (child.needsUpdate s now) (child.needsUpdate r now))
    {s : PanelSkin.Surroundings m} {r : PanelSkin.Surroundings n} (h : R.Surroundings s r) :
    R.rel (Widget.rowsNeedUpdate s now rows) (Widget.rowsNeedUpdate r now rows) := by
  cases rows with
  | none => exact R.rel_pure _
  | some rows =>
      simp only [Widget.rowsNeedUpdate]
      generalize 0 = row
      induction rows generalizing row with
      | nil => exact R.rel_pure _
      | cons first rest ih =>
          simp only [Option.getD_some, List.forall_mem_cons] at hrows
          simp only [Widget.rowsNeedUpdateFrom]
          apply R.rel_bind (anyNeedsUpdate_related hrows.1 (h.atRow row))
          intro needed
          split
          · exact R.rel_pure _
          · exact ih hrows.2 (row + 1)

theorem needsUpdate_related (w : Widget) (now : Nat) {s : PanelSkin.Surroundings m}
    {r : PanelSkin.Surroundings n} (h : R.Surroundings s r) :
    R.rel (w.needsUpdate s now) (w.needsUpdate r now) := by
  induction w generalizing s r with
  | leaf style kind =>
      simp only [Widget.needsUpdate]
      apply R.rel_bind (h.isVisible style)
      intro visible
      split
      · exact h.leafNeedsUpdate kind now
      · exact R.rel_pure _
  | block style children ih =>
      simp only [Widget.needsUpdate]
      apply R.rel_bind (h.isVisible style)
      intro visible
      split
      · exact anyNeedsUpdate_related (fun child hchild s r => ih child hchild) h
      · exact R.rel_pure _
  | list style children rows _ ihRows =>
      simp only [Widget.needsUpdate]
      apply R.rel_bind (h.isVisible style)
      intro visible
      split
      · apply rowsNeedUpdate_related _ h
        exact fun row hrow child hchild s r => ihRows row hrow child hchild
      · exact R.rel_pure _

end Correspondence

end PanelSkin
