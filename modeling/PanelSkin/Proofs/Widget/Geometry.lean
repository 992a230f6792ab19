import Mathlib.Algebra.Group.Nat.Defs
import PanelSkin.Proofs.Expr.Correspondence
import PanelSkin.Proofs.Graphics.Word
import PanelSkin.Widget.Geometry

/-!
The box of a widget that lies directly on a display. Its corners come from four numbers of 64 bits,
which are first held in a range of half the words of 32 bits. On a display with no more pixels to a
side than that range reaches, all sums of the side, a coordinate and a length are words then; the
smallest of them is the smallest word.
-/

namespace PanelSkin

/-- The expression that gives a bound. -/
def Span.expr : Span → Expr
  | .edge e => e
  | .length e => e

namespace Geometry

/-- The far bound of a widget, from the number that its expression has. -/
def far (start origin size number : Int) : Span → Int
  | .edge _ => place (clampCoordinate number) origin size
  | .length _ => start + clampCoordinate number - 1

/-- The box of a widget, from the numbers that its expressions have. -/
def boxOf (g : Geometry) (container : Rect) (x1 y1 x2 y2 : Int) : Rect :=
  let left := place (clampCoordinate x1) container.x1 container.width
  let top := place (clampCoordinate y1) container.y1 container.height
  ⟨left, top, far left container.x1 container.width x2 g.x2,
    far top container.y1 container.height y2 g.y2⟩

/-- The numbers are computed in the order of the corners. -/
theorem resolve_eq {m : Type → Type} [Monad m] [LawfulMonad m] (lookups : Lookups m)
    (g : Geometry) (container : Rect) :
    g.resolve lookups container = do
      let x1 ← g.x1.evaluateNumber lookups
      let y1 ← g.y1.evaluateNumber lookups
      let x2 ← g.x2.expr.evaluateNumber lookups
      let y2 ← g.y2.expr.evaluateNumber lookups
      return g.boxOf container x1.toInt y1.toInt x2.toInt y2.toInt := by
  have hfar (start origin size : Int) (s : Span) : Span.resolve lookups start origin size s = do
      return far start origin size (← s.expr.evaluateNumber lookups).toInt s := by
    cases s with
    | edge e => simp [Span.resolve, coordinate, far, PanelSkin.Span.expr]
    | length e => simp [Span.resolve, coordinate, far, PanelSkin.Span.expr]
  simp only [resolve, coordinate, hfar, bind_assoc, pure_bind]
  rfl

/-! The same in words of 32 bits. -/

def place? (value origin size : Int) : Option Int :=
  if value < 0 then do word? 32 ((← word? 32 (origin + size)) + value)
  else word? 32 (origin + value)

def far? (start origin size number : Int) : Span → Option Int
  | .edge _ => place? (clampCoordinate number) origin size
  | .length _ => do word? 32 ((← word? 32 (start + clampCoordinate number)) - 1)

/-- The box of a widget, with every sum on the way held in a word. -/
def boxOf? (g : Geometry) (container : Rect) (x1 y1 x2 y2 : Int) : Option Rect := do
  let left ← place? (clampCoordinate x1) container.x1 container.width
  let top ← place? (clampCoordinate y1) container.y1 container.height
  let right ← far? left container.x1 container.width x2 g.x2
  let bottom ← far? top container.y1 container.height y2 g.y2
  return ⟨left, top, right, bottom⟩

section Side

variable {n size start : Int}

theorem clampCoordinate_bounds (n : Int) :
    -2 ^ 30 ≤ clampCoordinate n ∧ clampCoordinate n ≤ 2 ^ 30 - 1 := by
  unfold clampCoordinate
  omega

theorem clampCoordinate_of_le (hleast : -2 ^ 30 ≤ n) (hmost : n ≤ 2 ^ 30 - 1) :
    clampCoordinate n = n := by
  unfold clampCoordinate
  omega

theorem place_bounds (hsize : 1 ≤ size) (hsize' : size ≤ 2 ^ 30) (n : Int) :
    1 - 2 ^ 30 ≤ place (clampCoordinate n) 0 size ∧
      place (clampCoordinate n) 0 size ≤ 2 ^ 30 - 1 := by
  have hn := clampCoordinate_bounds n
  unfold place
  split <;> omega

theorem place?_eq (hsize : 1 ≤ size) (hsize' : size ≤ 2 ^ 30) (n : Int) :
    place? (clampCoordinate n) 0 size = some (place (clampCoordinate n) 0 size) := by
  have hbounds := place_bounds hsize hsize' n
  have hplace : IsWord 32 (place (clampCoordinate n) 0 size) := by
    unfold IsWord
    omega
  have hsum : IsWord 32 (0 + size) := by
    unfold IsWord
    omega
  unfold place? place at *
  split at hplace
  · rename_i hneg
    rw [if_pos hneg, if_pos hneg, word?_of_isWord hsum]
    exact word?_of_isWord hplace
  · rename_i hneg
    rw [if_neg hneg, if_neg hneg]
    exact word?_of_isWord hplace

theorem far?_eq (hsize : 1 ≤ size) (hsize' : size ≤ 2 ^ 30) (hstart : 1 - 2 ^ 30 ≤ start)
    (hstart' : start ≤ 2 ^ 30 - 1) (n : Int) (s : Span) :
    far? start 0 size n s = some (far start 0 size n s) := by
  cases s with
  | edge e => exact place?_eq hsize hsize' n
  | length e =>
      have hn := clampCoordinate_bounds n
      have hsum : IsWord 32 (start + clampCoordinate n) := by
        unfold IsWord
        omega
      have hlast : IsWord 32 (start + clampCoordinate n - 1) := by
        unfold IsWord
        omega
      dsimp only [far?, far]
      rw [word?_of_isWord hsum]
      exact word?_of_isWord hlast

/-- Negative coordinates count from the far edge. -/
theorem far_of_neg {k : Int} (hk : 1 ≤ k) (hk' : k ≤ 2 ^ 30) (e : Expr) :
    far start 0 size (-k) (.edge e) = size - k := by
  dsimp only [far]
  rw [clampCoordinate_of_le (by omega) (by omega), place, if_pos (by omega)]
  omega

theorem far_of_length (hn : 1 ≤ n) (hn' : n ≤ 2 ^ 30 - 1) (e : Expr) :
    far start 0 size n (.length e) = start + n - 1 := by
  dsimp only [far]
  rw [clampCoordinate_of_le (by omega) hn']

end Side

section Screen

variable {w h : Nat}

theorem width_screen (hw : 1 ≤ w) (hw' : w ≤ 2 ^ 30) : (Rect.sized 0 0 w h).width = w := by
  unfold Rect.width Rect.sized saturate
  dsimp only
  omega

theorem height_screen (hh : 1 ≤ h) (hh' : h ≤ 2 ^ 30) : (Rect.sized 0 0 w h).height = h := by
  unfold Rect.height Rect.sized saturate
  dsimp only
  omega

theorem width_of_length {box : Rect} {n : Int} (hn : 1 ≤ n) (hn' : n ≤ 2 ^ 30 - 1)
    (hbox : box.x2 = box.x1 + n - 1) : box.width = n := by
  unfold Rect.width saturate
  omega

theorem height_of_length {box : Rect} {n : Int} (hn : 1 ≤ n) (hn' : n ≤ 2 ^ 30 - 1)
    (hbox : box.y2 = box.y1 + n - 1) : box.height = n := by
  unfold Rect.height saturate
  omega

theorem boxOf?_screen (hw : 1 ≤ w) (hw' : w ≤ 2 ^ 30) (hh : 1 ≤ h) (hh' : h ≤ 2 ^ 30)
    (g : Geometry) (x1 y1 x2 y2 : Int) :
    g.boxOf? (Rect.sized 0 0 w h) x1 y1 x2 y2 =
      some (g.boxOf (Rect.sized 0 0 w h) x1 y1 x2 y2) := by
  have hleft : 1 - 2 ^ 30 ≤ place (clampCoordinate x1) 0 w ∧
      place (clampCoordinate x1) 0 w ≤ 2 ^ 30 - 1 := place_bounds (by omega) (by omega) x1
  have htop : 1 - 2 ^ 30 ≤ place (clampCoordinate y1) 0 h ∧
      place (clampCoordinate y1) 0 h ≤ 2 ^ 30 - 1 := place_bounds (by omega) (by omega) y1
  unfold boxOf? boxOf
  rw [width_screen hw hw', height_screen hh hh']
  dsimp only [Rect.sized]
  rw [place?_eq (by omega) (by omega), place?_eq (by omega) (by omega)]
  dsimp only [Option.bind_eq_bind, Option.bind_some]
  rw [far?_eq (by omega) (by omega) hleft.1 hleft.2, far?_eq (by omega) (by omega) htop.1 htop.2]
  rfl

/-- A widget that lies directly on a display of up to 2^30 columns and rows gets its box from the
four numbers of its expressions, whatever these are: each is brought into the range of half the
words, and no sum after that leaves the words of 32 bits. The far bound -k is the k-th pixel from
the far edge, and a length is the exact number of columns or rows, wherever the box starts. -/
theorem resolves_in_words {m : Type → Type} [Monad m] [LawfulMonad m] (lookups : Lookups m)
    (g : Geometry) (hw : 1 ≤ w) (hw' : w ≤ 2 ^ 30) (hh : 1 ≤ h) (hh' : h ≤ 2 ^ 30) :
    let screen := Rect.sized 0 0 w h
    (g.resolve lookups screen = do
      let x1 ← g.x1.evaluateNumber lookups
      let y1 ← g.y1.evaluateNumber lookups
      let x2 ← g.x2.expr.evaluateNumber lookups
      let y2 ← g.y2.expr.evaluateNumber lookups
      return g.boxOf screen x1.toInt y1.toInt x2.toInt y2.toInt) ∧
    (∀ n, clampCoordinate n = max (-2 ^ 30) (min (2 ^ 30 - 1) n)) ∧
    ∀ x1 y1 x2 y2 : Int64, let box := g.boxOf screen x1.toInt y1.toInt x2.toInt y2.toInt
      g.boxOf? screen x1.toInt y1.toInt x2.toInt y2.toInt = some box ∧
      (∀ k : Int, 1 ≤ k → k ≤ 2 ^ 30 →
        (∀ e, g.x2 = .edge e → x2.toInt = -k → box.x2 = w - k) ∧
        ∀ e, g.y2 = .edge e → y2.toInt = -k → box.y2 = h - k) ∧
      ∀ n : Int, 1 ≤ n → n ≤ 2 ^ 30 - 1 →
        (∀ e, g.x2 = .length e → x2.toInt = n → box.x2 = box.x1 + n - 1 ∧ box.width = n) ∧
        ∀ e, g.y2 = .length e → y2.toInt = n → box.y2 = box.y1 + n - 1 ∧ box.height = n := by
  intro screen
  refine ⟨resolve_eq lookups g screen, fun n => rfl, fun x1 y1 x2 y2 => ?_⟩
  intro box
  have hwidth : screen.width = w := width_screen hw hw'
  have hheight : screen.height = h := height_screen hh hh'
  refine ⟨boxOf?_screen hw hw' hh hh' g _ _ _ _, fun k hk hk' => ⟨?_, ?_⟩,
    fun n hn hn' => ⟨?_, ?_⟩⟩
  · intro e he hx2
    dsimp only [box, boxOf]
    rw [he, hx2, hwidth]
    exact far_of_neg hk hk' e
  · intro e he hy2
    dsimp only [box, boxOf]
    rw [he, hy2, hheight]
    exact far_of_neg hk hk' e
  · intro e he hx2
    have hfar : box.x2 = box.x1 + n - 1 := by
      dsimp only [box, boxOf]
      rw [he, hx2]
      exact far_of_length hn hn' e
    exact ⟨hfar, width_of_length hn hn' hfar⟩
  · intro e he hy2
    have hfar : box.y2 = box.y1 + n - 1 := by
      dsimp only [box, boxOf]
      rw [he, hy2]
      exact far_of_length hn hn' e
    exact ⟨hfar, height_of_length hn hn' hfar⟩

/-- On a display of one column, with the smallest numbers for the columns, the last sum is the
smallest word. With the greatest ones the last column is short of the greatest word by two. -/
theorem resolves_in_words_to_the_limit :
    let least : Expr := .number (-9223372036854775808)
    let most : Expr := .number 9223372036854775807
    let g : Geometry := { x1 := least, x2 := .length least, y1 := most, y2 := .length most }
    let w : Nat := 1
    let h : Nat := 2 ^ 30
    let box : Rect := ⟨1 - 2 ^ 30, 2 ^ 30 - 1, -2 ^ 31, 2 ^ 31 - 3⟩
    1 ≤ w ∧ w ≤ 2 ^ 30 ∧ 1 ≤ h ∧ h ≤ 2 ^ 30 ∧ g.resolve emptyWorld (Rect.sized 0 0 w h) = box ∧
      g.boxOf? (Rect.sized 0 0 w h) (-9223372036854775808) 9223372036854775807
        (-9223372036854775808) 9223372036854775807 = some box := by
  intro least most g w h box
  have hw : 1 ≤ w ∧ w ≤ 2 ^ 30 := by decide
  have hh : 1 ≤ h ∧ h ≤ 2 ^ 30 := by decide
  obtain ⟨hresolve, -, hbox⟩ := resolves_in_words emptyWorld g hw.1 hw.2 hh.1 hh.2
  obtain ⟨hwords, -⟩ := hbox (-9223372036854775808) 9223372036854775807 (-9223372036854775808)
    9223372036854775807
  exact ⟨hw.1, hw.2, hh.1, hh.2, hresolve.trans rfl, hwords.trans (by decide)⟩

end Screen

end Geometry

end PanelSkin
