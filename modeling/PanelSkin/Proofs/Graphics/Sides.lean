import PanelSkin.Proofs.Graphics.Canvas
import PanelSkin.Proofs.Graphics.Line
import PanelSkin.Proofs.Graphics.Region

/-!
The four sides of a rectangle. Each of them is drawn as a line of its own, from one corner to the
next, so a corner is drawn with both of its sides, and where opposite sides coincide so are all the
pixels. How often a pixel is drawn can be seen where the color is translucent: it is mixed in each
time.
-/

namespace PanelSkin

namespace Line

/-- The rectangle of which two opposite corners are the ends of a line. -/
def box (l : Line) : Rect := ⟨l.x1, l.y1, l.x2, l.y2⟩

/-- Held in words, the loop gets to the end of a line, and these are the pixels it has drawn. -/
def Yields (l : Line) (points : List Point) : Prop :=
  ∃ pen, l.start? = some pen ∧ l.Draws pen points

section Straight

variable {l : Line} {pen : Pen} {points : List Point}

/-- Along a row the error stays what it was, and so does the row. -/
theorem next?_across (hrows : l.rows = 0) (hcolumns : 0 < l.columns) (hshort : l.columns < 2 ^ 30)
    (herror : pen.error = l.columns) (hplace : IsWord 32 (pen.x + direction l.x1 l.x2)) :
    l.next? pen = some ⟨pen.x + direction l.x1 l.x2, pen.y, pen.error⟩ := by
  have htwice : IsWord 32 (2 * l.columns) := by
    unfold IsWord
    omega
  have hchange : IsWord 32 (l.columns + -0) := by
    unfold IsWord
    omega
  unfold next?
  rw [herror, hrows, word?_of_isWord htwice]
  dsimp only [Option.bind_eq_bind, Option.bind_some]
  rw [moved?_of_due (by omega) hplace hchange]
  dsimp only [Option.bind_some]
  rw [moved?_of_not (by omega), Int.neg_zero, Int.add_zero]
  rfl

/-- Along a column it is the same. -/
theorem next?_down (hcolumns : l.columns = 0) (hrows : 0 < l.rows) (hshort : l.rows ≤ 2 ^ 30)
    (herror : pen.error = -l.rows) (hplace : IsWord 32 (pen.y + direction l.y1 l.y2)) :
    l.next? pen = some ⟨pen.x, pen.y + direction l.y1 l.y2, pen.error⟩ := by
  have htwice : IsWord 32 (2 * -l.rows) := by
    unfold IsWord
    omega
  have hchange : IsWord 32 (-l.rows + 0) := by
    unfold IsWord
    omega
  unfold next?
  rw [herror, hcolumns, word?_of_isWord htwice]
  dsimp only [Option.bind_eq_bind, Option.bind_some]
  rw [moved?_of_not (by omega)]
  dsimp only [Option.bind_some]
  rw [moved?_of_due (by omega) hplace hchange, Int.add_zero]
  rfl

/-- If twice the error is not a word at the start, no pixels make a line. -/
theorem not_yields_of_far (hfar : ¬ IsWord 32 (2 * (l.columns - l.rows))) (points : List Point) :
    ¬ l.Yields points := by
  rintro ⟨pen, hstart, hdraws⟩
  obtain rfl := eq_of_start? hstart
  cases hdraws with
  | last hend =>
      obtain ⟨hx, hy⟩ := hend
      dsimp only at hx hy
      have hnone : 2 * (l.columns - l.rows) = 0 := by
        unfold columns rows
        omega
      rw [hnone] at hfar
      exact hfar (by decide)
  | more hend hnext =>
      obtain ⟨twice, htwice, -⟩ := Option.bind_eq_some_iff.mp hnext
      exact hfar (Option.ite_none_right_eq_some.mp htwice).1

/-- Rounds that lead from the start of a line to its end, not more than it has columns and rows,
draw what the walk draws. -/
theorem yields_of_rounds (path : Nat → Pen) {m : Nat} (hstart : l.start? = some (path 0))
    (hend : (path m).x = l.x2 ∧ (path m).y = l.y2)
    (hmore : ∀ k < m, ¬ ((path k).x = l.x2 ∧ (path k).y = l.y2) ∧
      l.next? (path k) = some (path (k + 1)))
    (hlength : m ≤ l.columns + l.rows)
    (hpoints : points = (List.range (m + 1)).map fun k => ⟨(path k).x, (path k).y⟩) :
    l.Yields points ∧ l.track = points := by
  have hdraws := draws_of_rounds path hend hmore
  rw [← hpoints] at hdraws
  refine ⟨⟨_, hstart, hdraws⟩, track_of_draws hstart hdraws ?_⟩
  rw [hpoints, List.length_map, List.length_range]
  omega

end Straight

/-- A line to the right is drawn column by column. -/
theorem yields_across {x1 x2 y : Int} (hle : x1 ≤ x2) (hshort : x2 - x1 < 2 ^ 30)
    (hx1 : IsWord 32 x1) (hx2 : IsWord 32 x2) :
    let l : Line := ⟨x1, y, x2, y⟩
    l.Yields l.box.points ∧ l.track = l.box.points := by
  intro l
  have hcolumns : l.columns = x2 - x1 := Int.natAbs_of_nonneg (show 0 ≤ x2 - x1 by omega)
  have hrows : l.rows = 0 := by simp [rows, l]
  -- after k rounds the pen is k columns further, with the error it had at the start
  refine yields_of_rounds (fun k => ⟨x1 + k, y, x2 - x1⟩) (m := (x2 - x1).toNat) ?_
    ⟨?_, rfl⟩ (fun k hk => ⟨?_, ?_⟩) (by omega) ?_
  · rw [start?_of_lt (by omega) (by omega), hcolumns, hrows, Int.sub_zero, Nat.cast_zero,
      Int.add_zero]
  · change x1 + ((x2 - x1).toNat : Int) = x2
    omega
  · rintro ⟨hend, -⟩
    change x1 + (k : Int) = x2 at hend
    omega
  · have hright : direction l.x1 l.x2 = 1 := if_pos (show x1 < x2 by omega)
    have hplace : IsWord 32 (x1 + k + direction l.x1 l.x2) := by
      unfold IsWord at *
      omega
    rw [next?_across hrows (by omega) (by omega) hcolumns.symm hplace, hright, Int.add_assoc]
    rfl
  · rw [box, Rect.points_row, span_of_le hle, List.map_map]
    rfl

/-- A line down is drawn row by row. -/
theorem yields_down {x y1 y2 : Int} (hle : y1 ≤ y2) (hshort : y2 - y1 ≤ 2 ^ 30)
    (hy1 : IsWord 32 y1) (hy2 : IsWord 32 y2) :
    let l : Line := ⟨x, y1, x, y2⟩
    l.Yields l.box.points ∧ l.track = l.box.points := by
  intro l
  have hcolumns : l.columns = 0 := by simp [columns, l]
  have hrows : l.rows = y2 - y1 := Int.natAbs_of_nonneg (show 0 ≤ y2 - y1 by omega)
  refine yields_of_rounds (fun k => ⟨x, y1 + k, -(y2 - y1)⟩) (m := (y2 - y1).toNat) ?_
    ⟨rfl, ?_⟩ (fun k hk => ⟨?_, ?_⟩) (by omega) ?_
  · rw [start?_of_lt (by omega) (by omega), hcolumns, hrows, Int.zero_sub, Nat.cast_zero,
      Int.add_zero]
  · change y1 + ((y2 - y1).toNat : Int) = y2
    omega
  · rintro ⟨-, hend⟩
    change y1 + (k : Int) = y2 at hend
    omega
  · have hdown : direction l.y1 l.y2 = 1 := if_pos (show y1 < y2 by omega)
    have hplace : IsWord 32 (y1 + k + direction l.y1 l.y2) := by
      unfold IsWord at *
      omega
    rw [next?_down hcolumns (by omega) (by omega) (by rw [hrows]) hplace, hdown, Int.add_assoc]
    rfl
  · rw [box, Rect.points_column, span_of_le hle, List.map_map]
    rfl

end Line

namespace Rect

/-- The sides of a rectangle: the upper and the lower one from left to right, the left and the right
one downwards. -/
def sides (r : Rect) : List Line :=
  [⟨r.x1, r.y1, r.x2, r.y1⟩, ⟨r.x1, r.y2, r.x2, r.y2⟩, ⟨r.x1, r.y1, r.x1, r.y2⟩,
    ⟨r.x2, r.y1, r.x2, r.y2⟩]

/-- How many sides run through a pixel. -/
def sidesThrough (r : Rect) (p : Point) : Nat := r.sides.countP fun l => l.box.contains p.x p.y

/-- The sides are so short that twice their length is a word; downwards it is taken negated. -/
structure ShortSides (r : Rect) : Prop where
  columns : r.x2 - r.x1 < 2 ^ 30
  rows : r.y2 - r.y1 ≤ 2 ^ 30

variable {r bounds : Rect}

theorem drawn_outline (hsome : r.isEmpty = false) (bounds : Rect) :
    r.drawn false bounds = r.sides.flatMap (·.points bounds) := by
  rw [drawn, hsome]
  simp [sides, List.append_assoc]

theorem forall_mem_sides {P : Line → Prop} : (∀ l ∈ r.sides, P l) ↔
    P ⟨r.x1, r.y1, r.x2, r.y1⟩ ∧ P ⟨r.x1, r.y2, r.x2, r.y2⟩ ∧ P ⟨r.x1, r.y1, r.x1, r.y2⟩ ∧
      P ⟨r.x2, r.y1, r.x2, r.y2⟩ := by
  simp [sides]

theorem sides_yield (hwords : r.InWords) (hsome : r.isEmpty = false) (hshort : r.ShortSides) :
    ∀ l ∈ r.sides, l.Yields l.box.points ∧ l.track = l.box.points := by
  obtain ⟨hx1, hy1, hx2, hy2⟩ := hwords
  obtain ⟨hcolumns, hrows⟩ := hshort
  obtain ⟨hx, hy⟩ := isEmpty_eq_false_iff.mp hsome
  rw [forall_mem_sides]
  exact ⟨Line.yields_across hx hcolumns hx1 hx2, Line.yields_across hx hcolumns hx1 hx2,
    Line.yields_down hy hrows hy1 hy2, Line.yields_down hy hrows hy1 hy2⟩

theorem contains_ends (hsome : r.isEmpty = false) :
    ∀ l ∈ r.sides, r.contains l.x1 l.y1 = true ∧ r.contains l.x2 l.y2 = true := by
  obtain ⟨hx, hy⟩ := isEmpty_eq_false_iff.mp hsome
  simp [forall_mem_sides, contains_iff, hx, hy]

/-- The sides do not leave the rectangle. -/
theorem box_within (hsome : r.isEmpty = false) : ∀ l ∈ r.sides, l.box.Within r := by
  obtain ⟨hx, hy⟩ := isEmpty_eq_false_iff.mp hsome
  rw [forall_mem_sides]
  exact ⟨⟨le_rfl, le_rfl, le_rfl, hy⟩, ⟨le_rfl, hy, le_rfl, le_rfl⟩, ⟨le_rfl, le_rfl, hx, le_rfl⟩,
    ⟨hx, le_rfl, le_rfl, le_rfl⟩⟩

theorem points_side (hwords : r.InWords) (hsome : r.isEmpty = false) (hshort : r.ShortSides)
    (hwithin : r.Within bounds) : ∀ l ∈ r.sides, l.points bounds = l.box.points := by
  intro l hl
  obtain ⟨hstart, hend⟩ := contains_ends hsome l hl
  rw [Line.points_of_inside (hwithin.contains hstart) (hwithin.contains hend)]
  exact (sides_yield hwords hsome hshort l hl).2

/-- A pixel is drawn once for each side that runs through it. -/
theorem count_outline (hwords : r.InWords) (hsome : r.isEmpty = false) (hshort : r.ShortSides)
    (hwithin : r.Within bounds) (p : Point) :
    (r.drawn false bounds).count p = r.sidesThrough p := by
  have hsides : r.sides.map (List.count p ∘ fun l => l.points bounds)
      = r.sides.map fun l => if l.box.contains p.x p.y = true then 1 else 0 := by
    refine List.map_congr_left fun l hl => ?_
    rw [Function.comp_apply, points_side hwords hsome hshort hwithin l hl, count_points]
  rw [drawn_outline hsome, List.count_flatMap, hsides]
  simp [sides, sidesThrough, List.countP_cons, Nat.add_comm]

theorem contains_of_sidesThrough_pos (hsome : r.isEmpty = false) {p : Point}
    (hpos : 0 < r.sidesThrough p) : r.contains p.x p.y = true := by
  obtain ⟨l, hl, hbox⟩ := List.countP_pos_iff.mp hpos
  exact (box_within hsome l hl).contains hbox

theorem sidesThrough_of_contains {p : Point} (hinside : r.contains p.x p.y = true) :
    r.sidesThrough p = (if p.y = r.y1 then 1 else 0) + (if p.y = r.y2 then 1 else 0)
      + (if p.x = r.x1 then 1 else 0) + (if p.x = r.x2 then 1 else 0) := by
  obtain ⟨hx, hy⟩ := contains_iff.mp hinside
  have hrow (y : Int) : (⟨r.x1, y, r.x2, y⟩ : Rect).contains p.x p.y = decide (p.y = y) := by
    rw [Bool.eq_iff_iff, contains_iff, decide_eq_true_eq]
    dsimp only
    omega
  have hcolumn (x : Int) : (⟨x, r.y1, x, r.y2⟩ : Rect).contains p.x p.y = decide (p.x = x) := by
    rw [Bool.eq_iff_iff, contains_iff, decide_eq_true_eq]
    dsimp only
    omega
  simp only [sidesThrough, sides, Line.box, List.countP_cons, List.countP_nil, hrow, hcolumn,
    decide_eq_true_eq]
  omega

/-- A side runs through the pixels that have a neighbour outside. -/
theorem sidesThrough_pos_iff (hsome : r.isEmpty = false) {p : Point} :
    0 < r.sidesThrough p ↔
      r.contains p.x p.y = true ∧ ∃ q ∈ p.neighbours, r.contains q.x q.y = false := by
  by_cases hinside : r.contains p.x p.y = true
  · have hout (x y : Int) : r.contains x y = false ↔
        ¬ ((r.x1 ≤ x ∧ x ≤ r.x2) ∧ r.y1 ≤ y ∧ y ≤ r.y2) := by
      rw [← contains_iff, Bool.not_eq_true]
    have hinside' := contains_iff.mp hinside
    have hpos : 0 < r.sidesThrough p ↔ p.y = r.y1 ∨ p.y = r.y2 ∨ p.x = r.x1 ∨ p.x = r.x2 := by
      rw [sidesThrough_of_contains hinside]
      split_ifs <;> omega
    rw [hpos, and_iff_right hinside]
    simp only [Point.neighbours, List.exists_mem_cons_iff, hout, List.not_mem_nil, false_and,
      exists_false, or_false]
    omega
  · refine iff_of_false (fun hpos => hinside (contains_of_sidesThrough_pos hsome hpos)) ?_
    exact fun h => hinside h.1

/-- Where there are two rows and two columns, two sides meet at a corner. -/
theorem sidesThrough_of_lt (hx : r.x1 < r.x2) (hy : r.y1 < r.y2) {p : Point}
    (hpos : 0 < r.sidesThrough p) : r.sidesThrough p =
      if (p.x = r.x1 ∨ p.x = r.x2) ∧ (p.y = r.y1 ∨ p.y = r.y2) then 2 else 1 := by
  have hsome : r.isEmpty = false := isEmpty_eq_false_iff.mpr ⟨hx.le, hy.le⟩
  have hinside := contains_of_sidesThrough_pos hsome hpos
  rw [sidesThrough_of_contains hinside] at hpos ⊢
  split_ifs at hpos ⊢ <;> omega

/-- Where there is one row or one column, its sides coincide. -/
theorem two_le_sidesThrough {p : Point} (hflat : r.x1 = r.x2 ∨ r.y1 = r.y2)
    (hinside : r.contains p.x p.y = true) : 2 ≤ r.sidesThrough p := by
  rw [sidesThrough_of_contains hinside]
  obtain ⟨hx, hy⟩ := contains_iff.mp hinside
  obtain hx' | hy' := hflat
  · rw [if_pos (show p.x = r.x1 by omega), if_pos (show p.x = r.x2 by omega)]
    omega
  · rw [if_pos (show p.y = r.y1 by omega), if_pos (show p.y = r.y2 by omega)]
    omega

/-- A longer side is not drawn to its end: in the first round, twice the error is not a word. -/
theorem exists_side_not_yields (hsome : r.isEmpty = false) (hlong : ¬ r.ShortSides) :
    ∃ l ∈ r.sides, ∀ points, ¬ l.Yields points := by
  obtain ⟨hx, hy⟩ := isEmpty_eq_false_iff.mp hsome
  by_cases hcolumns : r.x2 - r.x1 < 2 ^ 30
  · have hrows : ¬ r.y2 - r.y1 ≤ 2 ^ 30 := fun hrows => hlong ⟨hcolumns, hrows⟩
    refine ⟨⟨r.x1, r.y1, r.x1, r.y2⟩, by simp [sides], Line.not_yields_of_far ?_⟩
    unfold IsWord Line.columns Line.rows
    dsimp only
    omega
  · refine ⟨⟨r.x1, r.y1, r.x2, r.y1⟩, by simp [sides], Line.not_yields_of_far ?_⟩
    unfold IsWord Line.columns Line.rows
    dsimp only
    omega

theorem count_filled (hsome : r.isEmpty = false) (hwithin : r.Within bounds) (p : Point) :
    (r.drawn true bounds).count p = if r.contains p.x p.y = true then 1 else 0 := by
  have hdrawn : r.drawn true bounds = (r.intersect bounds).points := by
    rw [drawn, hsome]
    rfl
  rw [hdrawn, count_points, contains_intersect]
  refine if_congr ?_ rfl rfl
  rw [Bool.and_eq_true]
  exact and_iff_left_of_imp hwithin.contains

/-- A filled rectangle in sight is drawn pixel by pixel, each of them once. The outline of one is
drawn side by side: it has the pixels with a neighbour outside, but each as often as sides run
through it. So where there are two rows and two columns a corner is drawn twice, and where there is
one row or one column nothing is drawn only once. On a canvas the color is mixed into a pixel each
time. Where twice the length of a side is not a word, the drawing of that side does not come to its
end. -/
theorem drawn_side_by_side {r : Rect} (hwords : r.InWords) (hsome : r.isEmpty = false) :
    (∀ bounds, r.Within bounds →
      (r.drawn true bounds).Nodup ∧
      (∀ p, p ∈ r.drawn true bounds ↔ r.contains p.x p.y = true) ∧
      (r.ShortSides →
        let outline := r.drawn false bounds
        (∀ l ∈ r.sides, l.Yields (l.points bounds)) ∧
        (∀ p, p ∈ outline ↔
          r.contains p.x p.y = true ∧ ∃ q ∈ p.neighbours, r.contains q.x q.y = false) ∧
        (∀ p, outline.count p = r.sidesThrough p) ∧
        (r.x1 < r.x2 → r.y1 < r.y2 → ∀ p ∈ outline, outline.count p =
          if (p.x = r.x1 ∨ p.x = r.x2) ∧ (p.y = r.y1 ∨ p.y = r.y2) then 2 else 1) ∧
        (r.x1 = r.x2 ∨ r.y1 = r.y2 → ∀ p ∈ outline, 2 ≤ outline.count p))) ∧
    (¬ r.ShortSides → ∃ l ∈ r.sides, ∀ points, ¬ l.Yields points) ∧
    ∀ (c : Canvas) (color : Color) (x y : Nat), r.Within c.bounds →
      (c.draw (.rectangle r color true)).pixel? x y
          = (if r.contains x y = true then (c.pixel? x y).map color.onto else c.pixel? x y) ∧
        (r.ShortSides → (c.draw (.rectangle r color false)).pixel? x y
          = (c.pixel? x y).map color.onto^[r.sidesThrough ⟨x, y⟩]) := by
  refine ⟨fun bounds hwithin => ⟨?_, ?_, ?_⟩, exists_side_not_yields hsome, ?_⟩
  · refine List.nodup_iff_count_le_one.mpr fun p => ?_
    rw [count_filled hsome hwithin]
    split <;> decide
  · intro p
    rw [← List.count_pos_iff, count_filled hsome hwithin]
    split <;> simp [*]
  · intro hshort outline
    have hcount := count_outline hwords hsome hshort hwithin
    have hmem (p : Point) : p ∈ outline ↔ 0 < r.sidesThrough p := by
      rw [← List.count_pos_iff, hcount]
    refine ⟨?_, ?_, hcount, ?_, ?_⟩
    · intro l hl
      rw [points_side hwords hsome hshort hwithin l hl]
      exact (sides_yield hwords hsome hshort l hl).1
    · exact fun p => (hmem p).trans (sidesThrough_pos_iff hsome)
    · intro hx hy p hp
      rw [hcount]
      exact sidesThrough_of_lt hx hy ((hmem p).mp hp)
    · intro hflat p hp
      rw [hcount]
      exact two_le_sidesThrough hflat (contains_of_sidesThrough_pos hsome ((hmem p).mp hp))
  · intro c color x y hwithin
    constructor
    · refine (c.pixel?_plotAll_map _ color x y).trans ?_
      rw [count_filled hsome hwithin]
      split
      · rfl
      · exact Option.map_id'
    · intro hshort
      refine (c.pixel?_plotAll_map _ color x y).trans ?_
      rw [count_outline hwords hsome hshort hwithin]

/-- Three columns and two rows, a row of three pixels, and sides of too many pixels for words. -/
theorem drawn_side_by_side_three_columns :
    let r : Rect := ⟨1, 1, 3, 2⟩
    let row : Rect := ⟨0, 3, 2, 3⟩
    let far : Rect := ⟨0, 0, 2 ^ 30, 2⟩
    let shade : Color := ⟨0, 0, 0, 128⟩
    let c := Canvas.filled 5 4 .white
    r.InWords ∧ r.isEmpty = false ∧ r.Within c.bounds ∧ r.ShortSides ∧
      (r.drawn false c.bounds).count ⟨1, 2⟩ = 2 ∧ (r.drawn false c.bounds).count ⟨2, 2⟩ = 1 ∧
      (c.draw (.rectangle r shade false)).pixel? 2 2 = some (shade.onto .white) ∧
      row.InWords ∧ row.isEmpty = false ∧ row.ShortSides ∧
      2 ≤ (row.drawn false c.bounds).count ⟨1, 3⟩ ∧
      far.InWords ∧ far.isEmpty = false ∧ ¬ far.ShortSides ∧
      ∃ l ∈ far.sides, ∀ points, ¬ l.Yields points := by
  intro r row far shade c
  have hwords : r.InWords := ⟨by decide, by decide, by decide, by decide⟩
  have hwords' : row.InWords := ⟨by decide, by decide, by decide, by decide⟩
  have hwords'' : far.InWords := ⟨by decide, by decide, by decide, by decide⟩
  have hwithin : r.Within c.bounds := ⟨by decide, by decide, by decide, by decide⟩
  have hwithin' : row.Within c.bounds := ⟨by decide, by decide, by decide, by decide⟩
  have hshort : r.ShortSides := ⟨by decide, by decide⟩
  have hshort' : row.ShortSides := ⟨by decide, by decide⟩
  have hlong : ¬ far.ShortSides := fun h => absurd h.columns (by decide)
  obtain ⟨hdrawn, -, hcanvas⟩ := drawn_side_by_side hwords rfl
  obtain ⟨-, -, houtline⟩ := hdrawn c.bounds hwithin
  obtain ⟨-, hmem, -, hcorners, -⟩ := houtline hshort
  obtain ⟨hdrawn', -⟩ := drawn_side_by_side hwords' rfl
  obtain ⟨-, -, houtline'⟩ := hdrawn' c.bounds hwithin'
  obtain ⟨-, -, -, -, hflat⟩ := houtline' hshort'
  obtain ⟨-, hfar, -⟩ := drawn_side_by_side hwords'' rfl
  refine ⟨hwords, rfl, hwithin, hshort, ?_, ?_, ?_, hwords', rfl, hshort', ?_, hwords'', rfl, hlong,
    hfar hlong⟩
  · exact hcorners (by decide) (by decide) ⟨1, 2⟩ (by decide)
  · exact hcorners (by decide) (by decide) ⟨2, 2⟩ (by decide)
  · exact ((hcanvas c shade 2 2 hwithin).2 hshort).trans (by decide)
  · exact hflat (.inr rfl) ⟨1, 3⟩ (by decide)

/-- Three rows of three pixels in a shade. The pixels at the corners are mixed with it twice, and
come out darker than the others; a single pixel is mixed with it four times. A rounded outline of
the same rectangle has none of its pixels twice. -/
theorem drawn_side_by_side_darkens_corners :
    let r : Rect := ⟨0, 0, 2, 2⟩
    let shade : Color := ⟨0, 0, 0, 128⟩
    let c := Canvas.filled 3 3 .white
    let drawn := c.draw (.rectangle r shade false)
    r.InWords ∧ r.isEmpty = false ∧ r.Within c.bounds ∧ ¬ (r.drawn false c.bounds).Nodup ∧
      (r.drawn false c.bounds).count ⟨0, 0⟩ = 2 ∧ shade.onto .white = ⟨127, 127, 127, 255⟩ ∧
      drawn.pixel? 1 0 = some ⟨127, 127, 127, 255⟩ ∧ drawn.pixel? 0 0 = some ⟨63, 63, 63, 255⟩ ∧
      (c.draw (.rectangle ⟨1, 1, 1, 1⟩ shade false)).pixel? 1 1 = some ⟨15, 15, 15, 255⟩ ∧
      (r.drawnRounded false 1 c.bounds).Nodup := by
  refine ⟨⟨?_, ?_, ?_, ?_⟩, rfl, ⟨?_, ?_, ?_, ?_⟩, ?_, ?_, ?_, ?_, ?_, ?_, ?_⟩ <;> decide

end Rect

end PanelSkin
