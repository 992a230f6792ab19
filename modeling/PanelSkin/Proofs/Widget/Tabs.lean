import PanelSkin.Proofs.Widget.Columns

/-!
A line with tabs. Whatever stops the tabs have, the pen never goes back: each column of the line
starts at its stop if the one before it has ended by then, and otherwise where that ended. So the
columns lie one behind the other, up to the first that would start right of the box.
-/

namespace PanelSkin

namespace Typesetting

/-- A column starts at `start` if the one before it, with a tab behind it, ends at `pen`. -/
structure ColumnBehind (t : Typesetting) (tab : Nat) (pen start : Int) : Prop where
  behind : pen ≤ start
  atStop : ∀ stop, t.tabStop tab t.box.width = some stop → pen ≤ t.box.x1 + stop →
    start = t.box.x1 + stop
  /-- A stop that has been passed, which may be on the left of another one or of the box. -/
  passed : ∀ stop, t.tabStop tab t.box.width = some stop → t.box.x1 + stop < pen → start = pen
  unset : t.tabStop tab t.box.width = none → start = pen + t.face.charWidth ' '

/-- What is drawn of the columns of a line, of which the first starts at `start` and has the tab
with the number `tab` behind it. -/
structure Tabbed (t : Typesetting) (y : Int) (tab : Nat) (start : Int)
    (columns : List (List Char)) (runs : List TextRun) : Prop where
  /-- They are drawn in order, and none is passed over. -/
  texts : ∀ (i : Nat) (run : TextRun), runs[i]? = some run →
    ∃ column, columns[i]? = some column ∧ run = t.runAt run.x y column
  first : ∀ run, runs[0]? = some run → run.x = start
  next : ∀ (i : Nat) (run later : TextRun), runs[i]? = some run → runs[i + 1]? = some later →
    t.ColumnBehind (tab + i) (run.x + run.width) later.x
  /-- None is drawn that would start right of the box. -/
  inside : ∀ run ∈ runs, run.x ≤ t.box.x2
  /-- If columns are left out, the first of them would start right of the box. -/
  ends : runs.length < columns.length →
    runs = [] ∧ t.box.x2 < start ∨
    ∃ (i : Nat) (run : TextRun) (out : Int), i + 1 = runs.length ∧ runs[i]? = some run ∧
      t.ColumnBehind (tab + i) (run.x + run.width) out ∧ t.box.x2 < out

variable {t : Typesetting} {y : Int} {tab : Nat} {start : Int}

theorem columnBehind_columnStart (hspace : 0 ≤ t.face.charWidth ' ') (tab : Nat) (pen : Int) :
    t.ColumnBehind tab pen (t.columnStart tab pen) where
  behind := le_columnStart hspace tab pen
  atStop := by
    intro stop hstop hahead
    rw [columnStart, hstop]
    exact Int.max_eq_left hahead
  passed := by
    intro stop hstop hbehind
    rw [columnStart, hstop]
    exact Int.max_eq_right (Int.le_of_lt hbehind)
  unset := by
    intro hnone
    rw [columnStart, hnone]

namespace Tabbed

theorem nil : t.Tabbed y tab start [] [] where
  texts := by simp
  first := by simp
  next := by simp
  inside := by simp
  ends := by simp

theorem outside (columns : List (List Char)) (hout : t.box.x2 < start) :
    t.Tabbed y tab start columns [] where
  texts := by simp
  first := by simp
  next := by simp
  inside := by simp
  ends _ := Or.inl ⟨rfl, hout⟩

/-- One more column in front of others. -/
theorem cons {column : List Char} {columns : List (List Char)} {runs : List TextRun} {behind : Int}
    (hinside : start ≤ t.box.x2)
    (hbehind : t.ColumnBehind tab (start + (t.runAt start y column).width) behind)
    (hrest : t.Tabbed y (tab + 1) behind columns runs) :
    t.Tabbed y tab start (column :: columns) (t.runAt start y column :: runs) where
  texts := by
    intro i run hrun
    cases i with
    | zero =>
        obtain rfl := Option.some.inj hrun
        exact ⟨column, rfl, rfl⟩
    | succ i => exact hrest.texts i run hrun
  first := by
    intro run hrun
    obtain rfl := Option.some.inj hrun
    rfl
  next := by
    intro i run later hrun hlater
    cases i with
    | zero =>
        obtain rfl := Option.some.inj hrun
        rw [hrest.first later hlater]
        exact hbehind
    | succ i =>
        rw [← Nat.succ_add_eq_add_succ]
        exact hrest.next i run later hrun hlater
  inside := List.forall_mem_cons.mpr ⟨hinside, hrest.inside⟩
  ends := by
    intro hleft
    refine Or.inr ?_
    rcases hrest.ends (Nat.lt_of_succ_lt_succ hleft) with
      ⟨rfl, hout⟩ | ⟨i, run, out, hlast, hrun, hnext, hout⟩
    · exact ⟨0, _, behind, rfl, rfl, hbehind, hout⟩
    · rw [Nat.succ_add_eq_add_succ] at hnext
      exact ⟨i + 1, run, out, by rw [List.length_cons, hlast], hrun, hnext, hout⟩

theorem columnsFrom (hspace : 0 ≤ t.face.charWidth ' ') (pen : Int) (columns : List (List Char)) :
    t.Tabbed y (tab + 1) (t.columnStart tab pen) columns (t.columnsFrom y tab pen columns) := by
  induction columns generalizing tab pen with
  | nil => exact .nil
  | cons column columns ih =>
      rw [Typesetting.columnsFrom]
      dsimp only
      split
      · rename_i hout
        exact .outside _ hout
      · rename_i hinside
        exact .cons (Int.not_lt.mp hinside) (columnBehind_columnStart hspace _ _) (ih _)

theorem columns (hspace : 0 ≤ t.face.charWidth ' ') (columns : List (List Char)) :
    t.Tabbed y 0 t.box.x1 columns (t.columns y columns) := by
  cases columns with
  | nil => exact .nil
  | cons column columns =>
      rw [Typesetting.columns]
      split
      · rename_i hout
        exact .outside _ hout
      · rename_i hinside
        exact .cons (Int.not_lt.mp hinside) (columnBehind_columnStart hspace _ _)
          (columnsFrom hspace _ _)

variable {texts : List (List Char)} {runs : List TextRun}

/-- Each column starts right of all those before it. -/
theorem pairwise (h : t.Tabbed y tab start texts runs) :
    runs.Pairwise fun run later => run.x + run.width ≤ later.x := by
  have htrans : IsTrans TextRun fun run later => run.x + run.width ≤ later.x := by
    refine ⟨fun run middle later hmiddle hlater => ?_⟩
    have hwidth := middle.width_nonneg
    omega
  rw [← List.isChain_iff_pairwise, List.isChain_iff_getElem]
  intro i hi
  exact (h.next i _ _ (List.getElem?_eq_getElem _) (List.getElem?_eq_getElem hi)).behind

theorem le_start (h : t.Tabbed y tab start texts runs) : ∀ run ∈ runs, start ≤ run.x := by
  have hpairwise := h.pairwise
  cases runs with
  | nil => simp
  | cons first runs =>
      obtain rfl := h.first first rfl
      refine List.forall_mem_cons.mpr ⟨Int.le_refl _, ?_⟩
      intro run hrun
      have hwidth := first.width_nonneg
      have hbehind := List.rel_of_pairwise_cons hpairwise hrun
      omega

end Tabbed

/-- The columns of a line with tabs are drawn in order, the first at the left edge of the box and
each of the others at its tab stop, unless the one before it ends right of the stop; then it starts
where that ends. So none starts left of the box, and no two overlap. A column that would start right
of the box ends the line. This is so for any stops, missing ones and such as go back included. -/
theorem tabbed_columns_in_order (t : Typesetting) (align : Align) (y : Int) (text : List Char)
    (htab : '\t' ∈ text) (hspace : 0 ≤ t.face.charWidth ' ') :
    t.Tabbed y 0 t.box.x1 (text.splitOn '\t') (t.line align y text) ∧
      (∀ run ∈ t.line align y text, t.box.x1 ≤ run.x) ∧
      (t.line align y text).Pairwise fun run later => run.x + run.width ≤ later.x := by
  have hline : t.line align y text = t.columns y (text.splitOn '\t') := by
    rw [line, if_pos (List.contains_iff_mem.mpr htab)]
  have htabbed : t.Tabbed y 0 t.box.x1 (text.splitOn '\t') (t.line align y text) := by
    rw [hline]
    exact .columns hspace _
  exact ⟨htabbed, htabbed.le_start, htabbed.pairwise⟩

/-- Stops that go back behind the left edge of the box, and on to the right of it. -/
def unruly (tab : Nat) (_ : Int) : Option Int :=
  match tab with
  | 0 => some 10
  | 1 => some (-5)
  | 2 => none
  | _ => some 99

/-- The second column starts at its stop, the third where the second ends, and the fourth a space
behind the third. The stop of the fifth is right of the box. -/
theorem tabbed_columns_in_order_unruly :
    let face : Face := ⟨4, 2, 1, 0, 2, fun _ => 4, fun _ => none⟩
    let t : Typesetting := ⟨face, .black, ⟨3, 0, 40, 1⟩, unruly⟩
    let text := ['a', '\t', 'b', '\t', 'c', '\t', 'd', '\t', 'e']
    '\t' ∈ text ∧ 0 ≤ t.face.charWidth ' ' ∧
      (t.line .left 0 text).map (·.x) = [3, 13, 17, 25] ∧
      t.Tabbed 0 0 t.box.x1 (text.splitOn '\t') (t.line .left 0 text) ∧
      (∀ run ∈ t.line .left 0 text, t.box.x1 ≤ run.x) ∧
      (t.line .left 0 text).Pairwise fun run later => run.x + run.width ≤ later.x := by
  intro face t text
  have htab : '\t' ∈ text := by decide
  have hspace : 0 ≤ t.face.charWidth ' ' := by
    change (0 : Int) ≤ 4
    decide
  exact ⟨htab, hspace, by decide +kernel, tabbed_columns_in_order t .left 0 text htab hspace⟩

end Typesetting

end PanelSkin
