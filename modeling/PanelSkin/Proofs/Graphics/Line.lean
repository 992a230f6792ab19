import Mathlib.Data.List.Range
import PanelSkin.Graphics.Line
import PanelSkin.Proofs.Graphics.Rect
import PanelSkin.Proofs.Graphics.Share
import PanelSkin.Proofs.Graphics.Word

/-!
The pixels of a line. The loop that draws a line has one way out, the pixel at its end, and it does
get there: in each round the pen moves on along the longer side of the line, and along the shorter
one whenever the nearest pixel is the next. So the pixels can be told without the loop, by one
division each.
-/

namespace PanelSkin

/-- Where the pen is, and how far it has strayed. -/
structure Pen where
  x : Int
  y : Int
  error : Int
  deriving DecidableEq, Repr

namespace Line

/-- Number of columns between the ends. -/
def columns (l : Line) : Int := (l.x2 - l.x1).natAbs

/-- Number of rows between the ends. -/
def rows (l : Line) : Int := (l.y2 - l.y1).natAbs

/-- Length of the longer side. -/
def rounds (l : Line) : Int := max l.columns l.rows

/-- The distance of two coordinates, in words of 32 bits. -/
def distance? (a b : Int) : Option Int := do word? 32 ((← word? 32 (b - a)).natAbs : Int)

/-- The pen before the first round, in words of 32 bits. -/
def start? (l : Line) : Option Pen := do
  let dx ← distance? l.x1 l.x2
  let dy ← word? 32 (-(← distance? l.y1 l.y2))
  return ⟨l.x1, l.y1, ← word? 32 (dx + dy)⟩

/-- A coordinate and the error after a move, if one is due, in words of 32 bits. -/
def moved? (due : Prop) [Decidable due] (place move error change : Int) : Option (Int × Int) :=
  if due then do return (← word? 32 (place + move), ← word? 32 (error + change))
  else some (place, error)

/-- One round, in words of 32 bits. -/
def next? (l : Line) (pen : Pen) : Option Pen := do
  let twice ← word? 32 (2 * pen.error)
  let (x, error) ← moved? (-l.rows ≤ twice) pen.x (direction l.x1 l.x2) pen.error (-l.rows)
  let (y, error) ← moved? (twice ≤ l.columns) pen.y (direction l.y1 l.y2) error l.columns
  return ⟨x, y, error⟩

/-- Round after round, all in words, a line is drawn from a pen on to its end, and that is all that
is drawn. -/
inductive Draws (l : Line) : Pen → List Point → Prop
  | last {pen : Pen} (hend : pen.x = l.x2 ∧ pen.y = l.y2) : Draws l pen [⟨pen.x, pen.y⟩]
  | more {pen pen' : Pen} {rest : List Point} (hend : ¬ (pen.x = l.x2 ∧ pen.y = l.y2))
      (hnext : l.next? pen = some pen') (hrest : Draws l pen' rest) :
      Draws l pen (⟨pen.x, pen.y⟩ :: rest)

variable {l : Line} {pen pen' : Pen} {points : List Point}

theorem eq_of_moved? {due : Prop} [Decidable due] {place move error change : Int}
    {after : Int × Int} (h : moved? due place move error change = some after) :
    after = if due then (place + move, error + change) else (place, error) := by
  unfold moved? at h
  split at h
  · rename_i hdue
    simp only [Option.bind_eq_bind, Option.bind_eq_some_iff] at h
    obtain ⟨place', hplace, error', herror, hafter⟩ := h
    rw [if_pos hdue, ← eq_of_word? hplace, ← eq_of_word? herror]
    exact (Option.some.inj hafter).symm
  · rename_i hdue
    rw [if_neg hdue]
    exact (Option.some.inj h).symm

theorem moved?_of_due {due : Prop} [Decidable due] {place move error change : Int} (hdue : due)
    (hplace : IsWord 32 (place + move)) (herror : IsWord 32 (error + change)) :
    moved? due place move error change = some (place + move, error + change) := by
  rw [moved?, if_pos hdue, word?_of_isWord hplace, word?_of_isWord herror]
  rfl

theorem moved?_of_not {due : Prop} [Decidable due] (hdue : ¬ due) (place move error change : Int) :
    moved? due place move error change = some (place, error) := if_neg hdue

/-- The loop of the walk makes the rounds, as long as its bound allows for another one. -/
theorem walk_of_next? (hend : ¬ (pen.x = l.x2 ∧ pen.y = l.y2)) (hnext : l.next? pen = some pen')
    (bound : Nat) :
    walk l l.columns (-l.rows) (bound + 1) pen.x pen.y pen.error =
      ⟨pen.x, pen.y⟩ :: walk l l.columns (-l.rows) bound pen'.x pen'.y pen'.error := by
  simp only [next?, Option.bind_eq_bind, Option.bind_eq_some_iff] at hnext
  obtain ⟨twice, htwice, ⟨x, afterX⟩, hacross, ⟨y, afterY⟩, hdown, hpen⟩ := hnext
  obtain rfl := eq_of_word? htwice
  have hx := eq_of_moved? hacross
  have hy := eq_of_moved? hdown
  obtain rfl := Option.some.inj hpen
  rw [walk, if_neg hend]
  dsimp only at hy ⊢
  rw [← hx]
  dsimp only
  rw [← hy]

theorem walk_of_draws (hdraws : l.Draws pen points) {bound : Nat}
    (hbound : points.length ≤ bound + 1) :
    walk l l.columns (-l.rows) bound pen.x pen.y pen.error = points := by
  induction hdraws generalizing bound with
  | last hend =>
      cases bound with
      | zero => rfl
      | succ bound => exact if_pos hend
  | more hend hnext hrest ih =>
      cases bound with
      | zero => cases hrest with
        | last => simp at hbound
        | more => simp at hbound
      | succ bound =>
          rw [walk_of_next? hend hnext, ih (Nat.le_of_succ_le_succ hbound)]

theorem add_direction (a b : Int) : a + direction a b * (b - a).natAbs = b := by
  unfold direction
  split
  · omega
  · omega

/-- On the way from one word to another there are only words. -/
theorem isWord_on_way {a b i : Int} (ha : IsWord 32 a) (hb : IsWord 32 b) (hi : 0 ≤ i)
    (hi' : i ≤ (b - a).natAbs) : IsWord 32 (a + direction a b * i) := by
  unfold IsWord direction at *
  split
  · omega
  · omega

/-- The pen after `k` rounds: on each side it has moved on by its share. -/
def penAt (l : Line) (k : Int) : Pen :=
  let i := share l.rounds l.columns k
  let j := share l.rounds l.rows k
  ⟨l.x1 + direction l.x1 l.x2 * i, l.y1 + direction l.y1 l.y2 * j,
    l.columns - l.rows - i * l.rows + j * l.columns⟩

/-- What is drawn after `k` rounds. -/
def pointAt (l : Line) (k : Int) : Point := ⟨(l.penAt k).x, (l.penAt k).y⟩

/-- The ends of a line are words, and its sides so short that no error leaves the words. -/
structure InReach (l : Line) : Prop where
  x1 : IsWord 32 l.x1
  y1 : IsWord 32 l.y1
  x2 : IsWord 32 l.x2
  y2 : IsWord 32 l.y2
  columns : l.columns < 2 ^ 29
  rows : l.rows < 2 ^ 29

theorem columns_nonneg (l : Line) : 0 ≤ l.columns := Int.natCast_nonneg _

theorem rows_nonneg (l : Line) : 0 ≤ l.rows := Int.natCast_nonneg _

theorem rounds_nonneg (l : Line) : 0 ≤ l.rounds := l.columns_nonneg.trans (Int.le_max_left _ _)

theorem columns_le (l : Line) : l.columns ≤ l.rounds := Int.le_max_left _ _

theorem rows_le (l : Line) : l.rows ≤ l.rounds := Int.le_max_right _ _

theorem long_side (l : Line) : l.columns = l.rounds ∨ l.rows = l.rounds := by
  unfold rounds
  omega

theorem distance?_eq {a b : Int} (h : ((b - a).natAbs : Int) < 2 ^ 31) :
    distance? a b = some ((b - a).natAbs : Int) := by
  have hdifference : IsWord 32 (b - a) := by
    unfold IsWord
    omega
  have hdistance : IsWord 32 ((b - a).natAbs : Int) := by
    unfold IsWord
    omega
  unfold distance?
  rw [word?_of_isWord hdifference, Option.bind_eq_bind, Option.bind_some, word?_of_isWord hdistance]

theorem start?_of_lt (hcolumns : l.columns < 2 ^ 31) (hrows : l.rows < 2 ^ 31) :
    l.start? = some ⟨l.x1, l.y1, l.columns - l.rows⟩ := by
  have hcolumns' := l.columns_nonneg
  have hrows' := l.rows_nonneg
  have hnegated : IsWord 32 (-l.rows) := by
    unfold IsWord
    omega
  have herror : IsWord 32 (l.columns + -l.rows) := by
    unfold IsWord
    omega
  have hdx : distance? l.x1 l.x2 = some l.columns := distance?_eq hcolumns
  have hdy : distance? l.y1 l.y2 = some l.rows := distance?_eq hrows
  unfold start?
  rw [hdx, hdy]
  dsimp only [Option.bind_eq_bind, Option.bind_some]
  rw [word?_of_isWord hnegated]
  dsimp only [Option.bind_some]
  rw [word?_of_isWord herror, Int.sub_eq_add_neg]
  rfl

theorem eq_of_distance? {a b distance : Int} (h : distance? a b = some distance) :
    distance = (b - a).natAbs := by
  obtain ⟨difference, hdifference, hdistance⟩ := Option.bind_eq_some_iff.mp h
  rw [eq_of_word? hdistance, eq_of_word? hdifference]

theorem eq_of_start? (h : l.start? = some pen) : pen = ⟨l.x1, l.y1, l.columns - l.rows⟩ := by
  simp only [start?, Option.bind_eq_bind, Option.bind_eq_some_iff] at h
  obtain ⟨dx, hdx, rows, hrows, dy, hdy, error, herror, hpen⟩ := h
  obtain rfl := eq_of_distance? hdx
  obtain rfl := eq_of_distance? hrows
  obtain rfl := eq_of_word? hdy
  obtain rfl := eq_of_word? herror
  exact (Option.some.inj hpen).symm

theorem start?_eq (hreach : l.InReach) : l.start? = some (l.penAt 0) := by
  have hcolumns := hreach.columns
  have hrows := hreach.rows
  rw [start?_of_lt (by omega) (by omega)]
  unfold penAt
  rw [share_zero l.rounds_nonneg, share_zero l.rounds_nonneg]
  simp

/-- If the moves that are due are the growing of a share, the place stays that of the share. -/
theorem moved?_eq {due : Prop} [Decidable due] {a move error change i i' : Int}
    (hdue : due ↔ i' = i + 1) (hstay : i' ≠ i + 1 → i' = i) (hplace : IsWord 32 (a + move * i'))
    (herror : IsWord 32 (error + (i' - i) * change)) :
    moved? due (a + move * i) move error change =
      some (a + move * i', error + (i' - i) * change) := by
  by_cases h : due
  · obtain rfl := hdue.mp h
    have hnext : a + move * i + move = a + move * (i + 1) := by ring
    have hchange : error + change = error + (i + 1 - i) * change := by ring
    rw [← hnext] at hplace ⊢
    rw [← hchange] at herror ⊢
    exact moved?_of_due h hplace herror
  · obtain rfl := hstay fun hsucc => h (hdue.mpr hsucc)
    rw [moved?_of_not h, Int.sub_self, Int.zero_mul, Int.add_zero]

/-- What the errors come to in a round fits into words, since the pen is never half a part ahead. -/
theorem error_isWord (hreach : l.InReach) (hn : 0 < l.rounds) (k : Int) :
    IsWord 32 (2 * (l.penAt k).error) ∧ IsWord 32 (l.penAt k).error := by
  have hstrayed := strayed_bounds (k := k) hn l.long_side
  have hshort : l.rounds < 2 ^ 29 := Int.max_lt.mpr ⟨hreach.columns, hreach.rows⟩
  have hcolumns := l.columns_nonneg
  have hrows := l.rows_nonneg
  have hcolumns' := l.columns_le
  have hrows' := l.rows_le
  unfold IsWord penAt
  dsimp only
  constructor
  · omega
  · omega

theorem next?_penAt (hreach : l.InReach) {k : Int} (hk : 0 ≤ k) (hk' : k < l.rounds) :
    l.next? (l.penAt k) = some (l.penAt (k + 1)) := by
  have hn : 0 < l.rounds := by omega
  have hshort : l.rounds < 2 ^ 29 := Int.max_lt.mpr ⟨hreach.columns, hreach.rows⟩
  obtain ⟨htwice, herror⟩ := error_isWord hreach hn k
  obtain ⟨-, herror'⟩ := error_isWord hreach hn (k + 1)
  have hi := share_bounds (k := k + 1) hn l.columns_nonneg (by omega) (by omega)
  have hj := share_bounds (k := k + 1) hn l.rows_nonneg (by omega) (by omega)
  have hstay := share_succ_of_ne (k := k) hn l.columns_nonneg l.columns_le
  have hstay' := share_succ_of_ne (k := k) hn l.rows_nonneg l.rows_le
  have hdue := due_iff (k := k) hn l.columns_le l.rows_le l.long_side
  have hdue' := due_iff (k := k) hn l.rows_le l.columns_le l.long_side.symm
  unfold next?
  rw [word?_of_isWord htwice]
  dsimp only [Option.bind_eq_bind, Option.bind_some]
  unfold penAt at *
  dsimp only at *
  generalize share l.rounds l.columns k = i at *
  generalize share l.rounds l.rows k = j at *
  generalize share l.rounds l.columns (k + 1) = i' at *
  generalize share l.rounds l.rows (k + 1) = j' at *
  have hbetween : IsWord 32
      (l.columns - l.rows - i * l.rows + j * l.columns + (i' - i) * -l.rows) := by
    by_cases hsucc : i' = i + 1
    · have hchange : (i' - i) * -l.rows = -l.rows := by
        rw [hsucc]
        ring
      have hrows := l.rows_le
      have hrows' := l.rows_nonneg
      rw [hchange]
      unfold IsWord at *
      omega
    · rwa [hstay hsucc, Int.sub_self, Int.zero_mul, Int.add_zero]
  rw [moved?_eq hdue hstay (isWord_on_way hreach.x1 hreach.x2 hi.1 hi.2) hbetween]
  dsimp only [Option.bind_some]
  have hrest : l.columns - l.rows - i * l.rows + j * l.columns + (i' - i) * -l.rows +
      (j' - j) * l.columns = l.columns - l.rows - i' * l.rows + j' * l.columns := by ring
  rw [moved?_eq _ hstay' (isWord_on_way hreach.y1 hreach.y2 hj.1 hj.2) (hrest ▸ herror'), hrest]
  · rfl
  · rw [← hdue']
    constructor
    · intro h
      linarith
    · intro h
      linarith

theorem penAt_zero (l : Line) : (l.penAt 0).x = l.x1 ∧ (l.penAt 0).y = l.y1 := by
  unfold penAt
  rw [share_zero l.rounds_nonneg, share_zero l.rounds_nonneg]
  exact ⟨by simp, by simp⟩

/-- After as many rounds as the longer side has pixels the pen is at the end. -/
theorem penAt_rounds (l : Line) :
    (l.penAt l.rounds).x = l.x2 ∧ (l.penAt l.rounds).y = l.y2 := by
  have hcolumns := l.columns_le
  have hrows := l.rows_le
  have hx := add_direction l.x1 l.x2
  have hy := add_direction l.y1 l.y2
  have hshare : share l.rounds l.columns l.rounds = l.columns ∧
      share l.rounds l.rows l.rounds = l.rows := by
    obtain hn | hn := l.rounds_nonneg.lt_or_eq
    · exact ⟨share_all hn _, share_all hn _⟩
    · have hcolumns' := l.columns_nonneg
      have hrows' := l.rows_nonneg
      rw [← hn, share_zero (Int.le_refl 0), share_zero (Int.le_refl 0)]
      omega
  unfold penAt
  rw [hshare.1, hshare.2]
  exact ⟨hx, hy⟩

theorem direction_cases (a b : Int) : direction a b = 1 ∨ direction a b = -1 := by
  unfold direction
  split
  · exact Or.inl rfl
  · exact Or.inr rfl

/-- Before that it is not, since it has not come to the end of the longer side. -/
theorem penAt_ne_end {k : Int} (hk : k < l.rounds) (hn : 0 < l.rounds) :
    ¬ ((l.penAt k).x = l.x2 ∧ (l.penAt k).y = l.y2) := by
  rintro ⟨hx, hy⟩
  have hx' : l.x1 + direction l.x1 l.x2 * l.columns = l.x2 := add_direction l.x1 l.x2
  have hy' : l.y1 + direction l.y1 l.y2 * l.rows = l.y2 := add_direction l.y1 l.y2
  unfold penAt at hx hy
  dsimp only at hx hy
  obtain hlong | hlong := l.long_side
  · rw [hlong, share_self hn] at hx
    obtain hd | hd := direction_cases l.x1 l.x2
    · rw [hd] at hx hx'
      omega
    · rw [hd] at hx hx'
      omega
  · rw [hlong, share_self hn] at hy
    obtain hd | hd := direction_cases l.y1 l.y2
    · rw [hd] at hy hy'
      omega
    · rw [hd] at hy hy'
      omega

/-- Rounds that lead from pen to pen draw a line if only the last of them is at its end. -/
theorem draws_of_rounds (path : Nat → Pen) {m : Nat}
    (hend : (path m).x = l.x2 ∧ (path m).y = l.y2)
    (hmore : ∀ k < m, ¬ ((path k).x = l.x2 ∧ (path k).y = l.y2) ∧
      l.next? (path k) = some (path (k + 1))) :
    l.Draws (path 0) ((List.range (m + 1)).map fun k => ⟨(path k).x, (path k).y⟩) := by
  induction m generalizing path with
  | zero => exact .last hend
  | succ m ih =>
      obtain ⟨hfirst, hnext⟩ := hmore 0 (by omega)
      rw [List.range_succ_eq_map, List.map_cons, List.map_map]
      exact .more hfirst hnext (ih (fun k => path (k + 1)) hend
        fun k hk => hmore (k + 1) (by omega))

/-- All pixels of a line, told without the loop. -/
def pixels (l : Line) : List Point :=
  (List.range (l.rounds.toNat + 1)).map fun (k : Nat) => l.pointAt k

theorem draws_pixels (hreach : l.InReach) : l.Draws (l.penAt 0) l.pixels := by
  have hn := l.rounds_nonneg
  refine draws_of_rounds (fun k => l.penAt k) ?_ fun k hk => ⟨?_, ?_⟩
  · rw [Int.toNat_of_nonneg hn]
    exact l.penAt_rounds
  · exact penAt_ne_end (by omega) (by omega)
  · exact next?_penAt hreach (by omega) (by omega)

/-- If the loop in words gets to the end of a line, it draws the same pixels as the walk. -/
theorem track_of_draws (hstart : l.start? = some pen) (hdraws : l.Draws pen points)
    (hlength : points.length ≤ (l.columns - -l.rows).toNat + 1) : l.track = points := by
  have hwalk := walk_of_draws hdraws hlength
  rwa [eq_of_start? hstart] at hwalk

theorem track_eq (hreach : l.InReach) : l.track = l.pixels := by
  refine track_of_draws (start?_eq hreach) (draws_pixels hreach) ?_
  have hcolumns := l.columns_nonneg
  have hrows := l.rows_nonneg
  unfold pixels rounds
  rw [List.length_map, List.length_range]
  omega

/-- A line with both ends inside the bounds is not clipped. -/
theorem points_of_inside {bounds : Rect} (hstart : bounds.contains l.x1 l.y1 = true)
    (hend : bounds.contains l.x2 l.y2 = true) : l.points bounds = l.track := by
  have hsome : bounds.isEmpty = false := by
    rw [Rect.contains_iff] at hstart
    rw [Rect.isEmpty_eq_false_iff]
    omega
  unfold points clip?
  rw [hsome, hstart, hend]
  rfl

/-- The pixels by the longer side: along it they are counted, and along the other one they are the
nearest. -/
theorem pointAt_eq {k : Int} (hk : 0 ≤ k) (hk' : k ≤ l.rounds) :
    l.pointAt k =
      if l.rows ≤ l.columns then
        ⟨l.x1 + direction l.x1 l.x2 * k,
          l.y1 + direction l.y1 l.y2 * ((2 * k * l.rows + l.columns) / (2 * l.columns))⟩
      else
        ⟨l.x1 + direction l.x1 l.x2 * ((2 * k * l.columns + l.rows) / (2 * l.rows)),
          l.y1 + direction l.y1 l.y2 * k⟩ := by
  have hself : share l.rounds l.rounds k = k := by
    obtain hn | hn := l.rounds_nonneg.lt_or_eq
    · exact share_self hn k
    · obtain rfl : k = 0 := by omega
      exact share_zero l.rounds_nonneg _
  unfold pointAt penAt
  split
  · rename_i hlong
    have hrounds : l.rounds = l.columns := Int.max_eq_left hlong
    rw [hrounds] at hself ⊢
    dsimp only
    rw [hself]
    rfl
  · rename_i hlong
    have hrounds : l.rounds = l.rows := Int.max_eq_right (by omega)
    rw [hrounds] at hself ⊢
    dsimp only
    rw [hself]
    rfl

/-- From one pixel to the next it is one step, straight or across. -/
theorem pointAt_succ {k : Int} (hk : 0 ≤ k) (hk' : k < l.rounds) :
    max ((l.pointAt (k + 1)).x - (l.pointAt k).x).natAbs
      ((l.pointAt (k + 1)).y - (l.pointAt k).y).natAbs = 1 := by
  have hn : 0 < l.rounds := by omega
  have hi := share_succ_cases (k := k) hn l.columns_nonneg l.columns_le
  have hj := share_succ_cases (k := k) hn l.rows_nonneg l.rows_le
  have hlong : share l.rounds l.columns (k + 1) = share l.rounds l.columns k + 1 ∨
      share l.rounds l.rows (k + 1) = share l.rounds l.rows k + 1 := by
    obtain hlong | hlong := l.long_side
    · left
      rw [hlong, share_self hn, share_self hn]
    · right
      rw [hlong, share_self hn, share_self hn]
  unfold pointAt penAt
  dsimp only
  generalize share l.rounds l.columns k = i at *
  generalize share l.rounds l.rows k = j at *
  generalize share l.rounds l.columns (k + 1) = i' at *
  generalize share l.rounds l.rows (k + 1) = j' at *
  obtain hx | hx := direction_cases l.x1 l.x2 <;> obtain hy | hy := direction_cases l.y1 l.y2
  all_goals
    rw [hx, hy]
    omega

/-- How far a coordinate on the way from one to another is off a part of the way. -/
theorem abs_on_way (a b i : Int) (part : ℚ) :
    |((a + direction a b * i : Int) : ℚ) - (a + part * (b - a))| =
      |i - part * ((b - a).natAbs : Int)| := by
  have hb : (b : ℚ) = a + direction a b * ((b - a).natAbs : Int) := by
    exact_mod_cast (add_direction a b).symm
  obtain hd | hd := direction_cases a b
  · rw [hb, hd]
    push_cast
    ring_nf
  · rw [hb, hd, ← abs_neg]
    push_cast
    ring_nf

/-- On the longer side nothing is rounded. -/
theorem share_long_side {d k : Int} (hn : 0 < l.rounds) (hlong : d = l.rounds) :
    |(share l.rounds d k : ℚ) - k / l.rounds * d| = 0 := by
  have hpos : (l.rounds : ℚ) ≠ 0 := by exact_mod_cast hn.ne'
  rw [hlong, share_self hn, div_mul_cancel₀ _ hpos, sub_self, abs_zero]

/-- The ideal line comes by at half a pixel at most, counted along the rows and the columns. -/
theorem pointAt_near {k : Int} (hk : 0 ≤ k) (hk' : k ≤ l.rounds) :
    ∃ part : ℚ, 0 ≤ part ∧ part ≤ 1 ∧
      |(l.pointAt k).x - (l.x1 + part * (l.x2 - l.x1))| +
        |(l.pointAt k).y - (l.y1 + part * (l.y2 - l.y1))| ≤ 1 / 2 := by
  refine ⟨k / l.rounds, ?_, ?_, ?_⟩
  · exact div_nonneg (by exact_mod_cast hk) (by exact_mod_cast l.rounds_nonneg)
  · exact div_le_one_of_le₀ (by exact_mod_cast hk') (by exact_mod_cast l.rounds_nonneg)
  · change |((l.x1 + direction l.x1 l.x2 * share l.rounds l.columns k : Int) : ℚ) - _| +
      |((l.y1 + direction l.y1 l.y2 * share l.rounds l.rows k : Int) : ℚ) - _| ≤ 1 / 2
    rw [abs_on_way, abs_on_way]
    change |(share l.rounds l.columns k : ℚ) - k / l.rounds * l.columns| +
      |(share l.rounds l.rows k : ℚ) - k / l.rounds * l.rows| ≤ 1 / 2
    obtain hn | hn := l.rounds_nonneg.lt_or_eq
    · have hx := share_near hn l.columns k
      have hy := share_near hn l.rows k
      rw [mul_div_right_comm] at hx hy
      obtain hlong | hlong := l.long_side
      · rw [share_long_side hn hlong]
        linarith
      · rw [share_long_side hn hlong]
        linarith
    · obtain rfl : k = 0 := by omega
      rw [share_zero l.rounds_nonneg, share_zero l.rounds_nonneg]
      norm_num

theorem length_pixels (l : Line) : (l.pixels.length : Int) = l.rounds + 1 := by
  have hn := l.rounds_nonneg
  unfold pixels
  rw [List.length_map, List.length_range]
  omega

theorem getElem?_pixels {k : Nat} (hk : k ≤ l.rounds) : l.pixels[k]? = some (l.pointAt k) := by
  have hindex : k < l.rounds.toNat + 1 := by
    have hn := l.rounds_nonneg
    omega
  unfold pixels
  rw [List.getElem?_map, List.getElem?_range hindex]
  rfl

theorem mem_pixels {p : Point} (hp : p ∈ l.pixels) :
    ∃ k : Int, 0 ≤ k ∧ k ≤ l.rounds ∧ l.pointAt k = p := by
  obtain ⟨k, hk, rfl⟩ := List.mem_map.mp hp
  rw [List.mem_range] at hk
  have hn := l.rounds_nonneg
  exact ⟨k, by omega, by omega, rfl⟩

theorem head?_pixels (l : Line) : l.pixels.head? = some ⟨l.x1, l.y1⟩ := by
  obtain ⟨hx, hy⟩ := l.penAt_zero
  rw [List.head?_eq_getElem?, getElem?_pixels l.rounds_nonneg, pointAt]
  exact congrArg some (congrArg₂ Point.mk hx hy)

theorem getLast?_pixels (l : Line) : l.pixels.getLast? = some ⟨l.x2, l.y2⟩ := by
  have hlength : l.pixels.length - 1 = l.rounds.toNat := by
    have hall := l.length_pixels
    omega
  have hlast : (l.rounds.toNat : Int) = l.rounds := Int.toNat_of_nonneg l.rounds_nonneg
  obtain ⟨hx, hy⟩ := l.penAt_rounds
  rw [List.getLast?_eq_getElem?, hlength, getElem?_pixels hlast.le, pointAt, hlast]
  exact congrArg some (congrArg₂ Point.mk hx hy)

theorem isChain_pixels (l : Line) :
    l.pixels.IsChain fun p q => max (q.x - p.x).natAbs (q.y - p.y).natAbs = 1 := by
  unfold pixels
  rw [List.isChain_map, List.isChain_range]
  intro k hk
  have hnext : ((k.succ : Nat) : Int) = k + 1 := by push_cast; rfl
  rw [hnext]
  exact pointAt_succ (by omega) (by omega)

theorem inReach_of_inside {bounds : Rect} (hwords : bounds.InWords)
    (hstart : bounds.contains l.x1 l.y1 = true) (hend : bounds.contains l.x2 l.y2 = true)
    (hcolumns : l.columns < 2 ^ 29) (hrows : l.rows < 2 ^ 29) : l.InReach := by
  obtain ⟨hx1, hy1, hx2, hy2⟩ := hwords
  rw [Rect.contains_iff] at hstart hend
  unfold IsWord at *
  constructor
  case columns => exact hcolumns
  case rows => exact hrows
  all_goals
    unfold IsWord
    omega

/-- A line with both ends inside the bounds is drawn round by round, without a number that leaves
the words, and the loop ends. It draws as many pixels as the longer side has, and they are known in
advance: along the longer side one after the other, and along the other side the nearest to the
ideal line. So the first one is the start, the last one is the end, each is next to the one before,
and none is off the ideal line by more than half a pixel. -/
theorem draws_nearest_pixels {bounds : Rect} (hwords : bounds.InWords)
    (hstart : bounds.contains l.x1 l.y1 = true) (hend : bounds.contains l.x2 l.y2 = true)
    (hcolumns : l.columns < 2 ^ 29) (hrows : l.rows < 2 ^ 29) :
    let drawn := l.points bounds
    (∃ pen, l.start? = some pen ∧ l.Draws pen drawn) ∧
      drawn.length = max l.columns l.rows + 1 ∧
      (∀ k : Nat, k ≤ max l.columns l.rows → drawn[k]? = some
        (if l.rows ≤ l.columns then
          ⟨l.x1 + direction l.x1 l.x2 * k,
            l.y1 + direction l.y1 l.y2 * ((2 * k * l.rows + l.columns) / (2 * l.columns))⟩
        else
          ⟨l.x1 + direction l.x1 l.x2 * ((2 * k * l.columns + l.rows) / (2 * l.rows)),
            l.y1 + direction l.y1 l.y2 * k⟩)) ∧
      drawn.head? = some ⟨l.x1, l.y1⟩ ∧ drawn.getLast? = some ⟨l.x2, l.y2⟩ ∧
      drawn.IsChain (fun p q => max (q.x - p.x).natAbs (q.y - p.y).natAbs = 1) ∧
      ∀ p ∈ drawn, ∃ part : ℚ, 0 ≤ part ∧ part ≤ 1 ∧
        |p.x - (l.x1 + part * (l.x2 - l.x1))| + |p.y - (l.y1 + part * (l.y2 - l.y1))| ≤ 1 / 2 := by
  intro drawn
  have hreach := inReach_of_inside hwords hstart hend hcolumns hrows
  have hdrawn : drawn = l.pixels := (points_of_inside hstart hend).trans (track_eq hreach)
  rw [hdrawn]
  refine ⟨⟨_, start?_eq hreach, draws_pixels hreach⟩, l.length_pixels, ?_, l.head?_pixels,
    l.getLast?_pixels, l.isChain_pixels, ?_⟩
  · intro k hk
    rw [getElem?_pixels hk, pointAt_eq (Int.natCast_nonneg k) hk]
  · intro p hp
    obtain ⟨k, hk, hk', rfl⟩ := mem_pixels hp
    exact pointAt_near hk hk'

/-- A line of five rows and two columns, upwards and to the left. -/
theorem draws_nearest_pixels_upwards :
    let l : Line := ⟨6, 7, 4, 2⟩
    let bounds : Rect := ⟨0, 0, 7, 7⟩
    bounds.InWords ∧ bounds.contains l.x1 l.y1 = true ∧ bounds.contains l.x2 l.y2 = true ∧
      l.columns < 2 ^ 29 ∧ l.rows < 2 ^ 29 ∧
      l.points bounds = [⟨6, 7⟩, ⟨6, 6⟩, ⟨5, 5⟩, ⟨5, 4⟩, ⟨4, 3⟩, ⟨4, 2⟩] ∧
      (∃ pen, l.start? = some pen ∧ l.Draws pen (l.points bounds)) ∧
      (l.points bounds)[3]? = some ⟨6 + -1 * ((2 * 3 * 2 + 5) / (2 * 5)), 7 + -1 * 3⟩ := by
  intro l bounds
  have hwords : bounds.InWords := ⟨by decide, by decide, by decide, by decide⟩
  have hstart : bounds.contains l.x1 l.y1 = true := by decide
  have hend : bounds.contains l.x2 l.y2 = true := by decide
  have hcolumns : l.columns < 2 ^ 29 := by decide
  have hrows : l.rows < 2 ^ 29 := by decide
  obtain ⟨hdraws, -, hpixel, -⟩ := draws_nearest_pixels hwords hstart hend hcolumns hrows
  exact ⟨hwords, hstart, hend, hcolumns, hrows, by decide, hdraws,
    (hpixel 3 (by decide)).trans (by decide)⟩

end Line

end PanelSkin
