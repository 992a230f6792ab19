import PanelSkin.Proofs.Expr.Execution
import PanelSkin.Proofs.Graphics.Rect
import PanelSkin.Proofs.Widget.Redraw
import PanelSkin.Proofs.Widget.Rows

/-!
How many rows a list has. Whenever it is drawn, a list gets as many rows as fit into its box: they
follow on each other from the top of the box on, and none of them reaches beyond its bottom. The
height of a row is held in a word of 32 bits. One that is longer than that counts by its last 32
bits, so that there may be rows where none fits.
-/

namespace PanelSkin

variable {m : Type → Type} [Monad m] {σ : Type} {E : Execution m σ}

theorem Expr.run_evaluateWord {lookups : Lookups m} {e : Expr} {st st' : σ} {n : Int64}
    (h : E.run (e.evaluateNumber lookups) st = some (n, st')) :
    E.run (e.evaluateWord lookups) st = some (n.toInt32.toInt, st') := by
  unfold evaluateWord
  rw [E.run_bind_of_run h, E.run_pure]

theorem Int64.toInt_toInt32_of_fits {n : Int64} (hlower : -2 ^ 31 ≤ n.toInt)
    (hupper : n.toInt < 2 ^ 31) : n.toInt32.toInt = n.toInt := by
  rw [Int64.toInt_toInt32]
  exact Int.bmod_eq_of_le (by omega) (by omega)

namespace Widget

namespace RowLayout

variable {l : RowLayout} {j k : Nat}

theorem count_eq (l : RowLayout) :
    l.count = if 1 ≤ l.height then (l.box.height / l.height).toNat else 0 := by
  unfold count rowCount
  by_cases hsome : 1 ≤ l.height
  · rw [if_pos (by omega), if_pos hsome]
    by_cases hbox : 0 ≤ l.box.height
    · rw [Int.tdiv_eq_ediv_of_nonneg hbox]
    · have hnone : l.box.height / l.height < 0 := Int.ediv_neg_of_neg_of_pos (by omega) (by omega)
      have hnone' : 0 ≤ (-l.box.height).tdiv l.height := Int.tdiv_nonneg (by omega) (by omega)
      rw [Int.neg_tdiv] at hnone'
      omega
  · rw [if_neg (by omega), if_neg hsome]

/-- A row of a list has a height, and ends in the box. -/
theorem ends_within (h : k < l.count) :
    1 ≤ l.height ∧ (k + 1) * l.height ≤ l.box.y2 - l.box.y1 + 1 := by
  rw [count_eq] at h
  split at h
  · rename_i hsome
    have hfits : ((k : Int) + 1) * l.height ≤ l.box.height :=
      (Int.le_ediv_iff_mul_le (by omega)).mp (by omega)
    have hpos : 0 < ((k : Int) + 1) * l.height := Int.mul_pos (by omega) (by omega)
    exact ⟨hsome, Int.le_trans hfits (Rect.height_le (by omega))⟩
  · omega

theorem boxOf_inside (h : k < l.count) :
    l.boxOf k = ⟨l.box.x1, l.box.y1 + k * l.height, l.box.x2, l.box.y1 + (k + 1) * l.height - 1⟩ ∧
      l.box.y1 ≤ (l.boxOf k).y1 ∧ (l.boxOf k).y1 ≤ (l.boxOf k).y2 ∧ (l.boxOf k).y2 ≤ l.box.y2 := by
  obtain ⟨hsome, hend⟩ := ends_within h
  have hstart : 0 ≤ (k : Int) * l.height := Int.mul_nonneg (by omega) (by omega)
  have hnext : ((k : Int) + 1) * l.height = k * l.height + l.height := by
    rw [Int.add_mul, Int.one_mul]
  refine ⟨?_, ?_, ?_, ?_⟩
  · rw [boxOf, Rect.mk.injEq]
    omega
  · dsimp only [boxOf]
    omega
  · dsimp only [boxOf]
    omega
  · dsimp only [boxOf]
    omega

theorem boxOf_succ (l : RowLayout) (k : Nat) : (l.boxOf (k + 1)).y1 = (l.boxOf k).y2 + 1 := by
  dsimp only [boxOf]
  rw [Int.natCast_succ, Int.add_mul, Int.one_mul]
  omega

/-- Rows are below those before them. -/
theorem boxOf_lt (hsome : 1 ≤ l.height) (h : j < k) : (l.boxOf j).y2 < (l.boxOf k).y1 := by
  have hbelow : ((j : Int) + 1) * l.height ≤ k * l.height :=
    Int.mul_le_mul_of_nonneg_right (by omega) (by omega)
  rw [Int.add_mul, Int.one_mul] at hbelow
  dsimp only [boxOf]
  omega

end RowLayout

/-- Rows drawn one after the other from row `k` on, each in its box and with its tokens: those that
are there, and after them new ones of a template. -/
inductive DrawsRows (E : Execution m σ) (s : Showing m Rect) (l : RowLayout)
    (template : List Widget) :
    Nat → List (List Widget) → σ → List (List Widget) → List DrawCall → σ → Prop where
  | nil (k : Nat) (there : List (List Widget)) (st : σ) :
      DrawsRows E s l template k there st [] [] st
  | cons {k : Nat} {there : List (List Widget)} {st st' st'' : σ} {first : List Widget}
      {others : List (List Widget)} {calls more : List DrawCall}
      (hfirst : E.run (drawAllAt (there.head?.getD template) (s.row l k)) st =
        some ((first, calls), st'))
      (hothers : DrawsRows E s l template (k + 1) there.tail st' others more st'') :
      DrawsRows E s l template k there st (first :: others) (calls ++ more) st''

theorem run_drawRows {s : Showing m Rect} {l : RowLayout} {children : List Widget} {k count : Nat}
    {there rows : List (List Widget)} {st st' : σ} {calls : List DrawCall} :
    E.run (drawRows (drawTemplate children) s.surroundings l.box l.height s.now k count
        (there.map drawAll)) st = some ((rows, calls), st') ↔
      rows.length = count ∧ DrawsRows E s l children.tail k there st rows calls st' := by
  induction count generalizing k there rows st calls with
  | zero =>
      rw [drawRows, E.run_pure_eq_some, Prod.mk.injEq]
      constructor
      · rintro ⟨⟨rfl, rfl⟩, rfl⟩
        exact ⟨rfl, .nil k there st⟩
      · rintro ⟨hlength, hrows⟩
        cases hrows with
        | nil => exact ⟨⟨rfl, rfl⟩, rfl⟩
        | cons hfirst hothers => simp at hlength
  | succ count ih =>
      have hdrawing : ((there.map drawAll).head?.getD (drawTemplate children) : Drawing m _) =
          drawAll (there.head?.getD children.tail) := by
        rw [drawTemplate_eq]
        cases there with
        | nil => rfl
        | cons row rest => rfl
      rw [drawRows, hdrawing, rowBox_eq, ← List.map_tail, E.run_bind_eq_some]
      constructor
      · rintro ⟨⟨first, calls⟩, between, hfirst, hrest⟩
        obtain ⟨⟨others, more⟩, after, hothers, hreturned⟩ := E.run_bind_eq_some.mp hrest
        rw [E.run_pure_eq_some, Prod.mk.injEq] at hreturned
        obtain ⟨⟨rfl, rfl⟩, rfl⟩ := hreturned
        obtain ⟨hlength, hrows⟩ := ih.mp hothers
        exact ⟨congrArg (· + 1) hlength, .cons hfirst hrows⟩
      · rintro ⟨hlength, hrows⟩
        cases hrows with
        | nil => simp at hlength
        | cons hfirst hothers =>
            refine ⟨_, _, hfirst, ?_⟩
            have hlength' := Nat.succ.inj hlength
            dsimp only
            rw [E.run_bind_of_run (ih.mpr ⟨hlength', hothers⟩), E.run_pure]

section List

variable {s : Showing m Rect} {style itemStyle : Style} {height : Expr} {template : List Widget}
  {st st₁ st₂ : σ} {look : Look} {h : Int64}

theorem run_drawAt_list (hlook : E.run (style.look s.surroundings.toLookups s.place) st =
      some (some look, st₁))
    (hheight : E.run (height.evaluateNumber s.surroundings.toLookups) st₁ = some (h, st₂))
    {rows : Option (List (List Widget))} {drawn : Widget} {calls : List DrawCall} {st₃ : σ} :
    let children := .leaf itemStyle (.item height) :: template
    let l : RowLayout := ⟨look.box, h.toInt32.toInt⟩
    E.run ((Widget.list style children rows).drawAt s) st = some ((drawn, calls), st₃) ↔
      ∃ rows', drawn = .list style children (some rows') ∧ rows'.length = l.count ∧
        DrawsRows E s l template 0 (rows.getD []) st₂ rows' calls st₃ := by
  intro children l
  rw [drawAt, draw, E.run_bind_of_run hlook]
  change E.run (height.evaluateWord _ >>= _) st₁ = _ ↔ _
  rw [E.run_bind_of_run (Expr.run_evaluateWord hheight), rowDrawings_eq_map, E.run_bind_eq_some]
  constructor
  · rintro ⟨⟨rows', calls'⟩, st', hdrawn, hreturned⟩
    rw [E.run_pure_eq_some, Prod.mk.injEq] at hreturned
    obtain ⟨⟨rfl, rfl⟩, rfl⟩ := hreturned
    exact ⟨rows', rfl, (run_drawRows (l := l)).mp hdrawn⟩
  · rintro ⟨rows', rfl, hrows⟩
    have hdrawn : E.run (drawRows (drawTemplate children) s.surroundings l.box l.height s.now 0
        l.count ((rows.getD []).map drawAll)) st₂ = some ((rows', calls), st₃) :=
      run_drawRows.mpr hrows
    refine ⟨_, _, hdrawn, ?_⟩
    rw [E.run_pure]

/-- A list is drawn with as many rows as fit into its box, whatever rows it had before: each in its
own strip of the box, one right below the other. The height of a row counts as a word of 32 bits,
and is what it was given as unless it is too long for that. -/
theorem draws_rows_that_fit (hlook : E.run (style.look s.surroundings.toLookups s.place) st =
      some (some look, st₁))
    (hheight : E.run (height.evaluateNumber s.surroundings.toLookups) st₁ = some (h, st₂))
    (rows : Option (List (List Widget))) :
    let children := .leaf itemStyle (.item height) :: template
    let box := look.box
    let step := h.toInt32.toInt
    let l : RowLayout := ⟨box, step⟩
    let count := if 1 ≤ step then (box.height / step).toNat else 0
    (-2 ^ 31 ≤ h.toInt → h.toInt < 2 ^ 31 → step = h.toInt) ∧
      (∀ drawn calls st₃,
        E.run ((Widget.list style children rows).drawAt s) st = some ((drawn, calls), st₃) ↔
          ∃ rows', drawn = .list style children (some rows') ∧ rows'.length = count ∧
            DrawsRows E s l template 0 (rows.getD []) st₂ rows' calls st₃) ∧
      (∀ k < count,
        l.boxOf k = ⟨box.x1, box.y1 + k * step, box.x2, box.y1 + (k + 1) * step - 1⟩ ∧
          box.y1 ≤ (l.boxOf k).y1 ∧ (l.boxOf k).y1 ≤ (l.boxOf k).y2 ∧
          (l.boxOf k).y2 ≤ box.y2) ∧
      (∀ k, (l.boxOf (k + 1)).y1 = (l.boxOf k).y2 + 1) ∧
      ∀ j k, j < k → k < count → (l.boxOf j).y2 < (l.boxOf k).y1 := by
  intro children box step l count
  have hcount : l.count = count := l.count_eq
  refine ⟨Int64.toInt_toInt32_of_fits, ?_, ?_, l.boxOf_succ, ?_⟩
  · intro drawn calls st₃
    rw [← hcount]
    exact run_drawAt_list hlook hheight
  · intro k hk
    exact RowLayout.boxOf_inside (hcount ▸ hk)
  · intro j k hjk hk
    exact RowLayout.boxOf_lt (RowLayout.ends_within (hcount ▸ hk)).1 hjk

/-- Of three rows two are left when they are eight pixels high in a box of twenty. -/
theorem draws_rows_that_fit_of_three :
    let E := Execution.evaluation Unit
    let s : Showing (Run Unit) Rect := ⟨.fixed (playing 8), ⟨0, 0, 23, 19⟩, 0⟩
    let height : Expr := .text ⟨[.token { name := "volume", id := 1 }]⟩
    let template := [Widget.leaf {} .pixel]
    let look : Look := ⟨⟨0, 0, 23, 19⟩, .black, .transparent⟩
    let list := Widget.list {} (.leaf {} (.item height) :: template)
      (some [template, template, template])
    E.run (Style.look s.surroundings.toLookups {} s.place) ([], ()) = some (some look, ([], ())) ∧
      E.run (height.evaluateNumber s.surroundings.toLookups) ([], ()) = some (8, ([], ())) ∧
      ∃ drawn calls st, E.run (list.drawAt s) ([], ()) = some ((drawn, calls), st) ∧
        (rowsOf drawn).length = 2 := by
  intro E s height template look list
  have hlook : E.run (Style.look s.surroundings.toLookups {} s.place) ([], ()) =
      some (some look, ([], ())) := rfl
  have hheight : E.run (height.evaluateNumber s.surroundings.toLookups) ([], ()) =
      some (8, ([], ())) := rfl
  refine ⟨hlook, hheight, ?_⟩
  obtain ⟨⟨⟨drawn, calls⟩, st⟩, hdrawn⟩ :
      ∃ outcome, E.run (list.drawAt s) ([], ()) = some outcome :=
    ⟨_, rfl⟩
  obtain ⟨-, hruns, -⟩ := draws_rows_that_fit hlook hheight (some [template, template, template])
  obtain ⟨rows, rfl, hlength, -⟩ := (hruns drawn calls st).mp hdrawn
  exact ⟨_, calls, st, hdrawn, hlength⟩

/-- A height of 2^32 + 8 counts as one of 8: in a box of sixteen pixels there are two rows, though
not one of that height fits. -/
theorem draws_rows_of_too_high_item :
    let height : Expr := .number 4294967304
    let list := Widget.list {} [.leaf {} (.item height), .leaf {} .pixel] none
    let box : Rect := ⟨0, 0, 23, 15⟩
    let given : Int64 := height.evaluateNumber gallery.toLookups
    given.toInt = 2 ^ 32 + 8 ∧ box.height / given.toInt = 0 ∧
      (rowsOf (list.draw gallery box 0).1).length = 2 := by
  decide +kernel

end List

end Widget

end PanelSkin
