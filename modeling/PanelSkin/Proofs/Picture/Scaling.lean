import Mathlib.Algebra.Order.Round
import Mathlib.Data.Rat.Floor
import Mathlib.Tactic.FieldSimp
import Mathlib.Tactic.Linarith
import Mathlib.Tactic.Positivity
import PanelSkin.Picture.Basic

/-!
The size of a scaled picture. A side that is not asked for is the nearest whole number to the one
that keeps the proportions, and halves go up. It is found in words of 64 bits, for which the
products of two sides leave just enough room. Whatever is asked for, all frames of the scaled
picture have the bytes of its size, which is never without pixels.
-/

namespace PanelSkin

/-- A number in a word without a sign, if it fits. -/
def natural? (bits n : Nat) : Option Nat := if n < 2 ^ bits then some n else none

theorem natural?_of_lt {bits n : Nat} (h : n < 2 ^ bits) : natural? bits n = some n := if_pos h

/-- At each size there are four bytes for every pixel of a frame, if there were before. -/
def Resampler.Fills (scale : Resampler) : Prop :=
  ∀ (pixels : Array UInt8) (w h tw th : Nat), w * h * 4 ≤ pixels.size → 1 ≤ tw → 1 ≤ th →
    (scale pixels (w, h) (tw, th)).size = tw * th * 4

theorem nearestPixel_fills : nearestPixel.Fills := by
  intro pixels w h tw th _ _ _
  simp [nearestPixel, List.length_flatMap, Nat.mul_assoc, Nat.mul_left_comm]

namespace Picture

section Proportion

variable {t t' a b : Nat}

/-- Twice the rounded side differs from twice the exact one by one divisor at most. -/
theorem proportion_bounds (hb : 0 < b) (t a : Nat) :
    2 * (proportion t a b * b) ≤ 2 * (t * a) + b ∧
      2 * (t * a) < 2 * (proportion t a b * b) + b := by
  have hle : proportion t a b * b ≤ t * a + b / 2 := Nat.div_mul_le_self _ _
  have hlt : t * a + b / 2 < proportion t a b * b + b := Nat.lt_div_mul_add hb
  omega

theorem proportion_eq_round (hb : 0 < b) (t a : Nat) :
    (proportion t a b : ℤ) = round ((t * a : ℚ) / b) := by
  obtain ⟨hle, hlt⟩ := proportion_bounds hb t a
  have hpos : (0 : ℚ) < b := by exact_mod_cast hb
  have hle' : 2 * ((proportion t a b : ℚ) * b) ≤ 2 * (t * a) + b := by exact_mod_cast hle
  have hlt' : 2 * ((t : ℚ) * a) < 2 * (proportion t a b * b) + b := by exact_mod_cast hlt
  symm
  rw [round_eq_iff, Set.mem_Ico, le_div_iff₀ hpos, div_lt_iff₀ hpos, Int.cast_natCast]
  constructor
  · linarith
  · linarith

theorem proportion_mono (h : t ≤ t') (a b : Nat) : proportion t a b ≤ proportion t' a b :=
  Nat.div_le_div_right (Nat.add_le_add_right (Nat.mul_le_mul_right a h) _)

theorem proportion_self (ha : 0 < a) (b : Nat) : proportion a b a = b := by
  unfold proportion
  rw [Nat.add_comm, Nat.add_mul_div_left _ _ ha, Nat.div_eq_of_lt (by omega), Nat.zero_add]

theorem abs_proportion_sub_le (hb : 0 < b) (t a : Nat) :
    |2 * ((proportion t a b : ℤ) * b - t * a)| ≤ b := by
  obtain ⟨hle, hlt⟩ := proportion_bounds hb t a
  have hle' : 2 * ((proportion t a b : ℤ) * b) ≤ 2 * (t * a) + b := by exact_mod_cast hle
  have hlt' : 2 * ((t : ℤ) * a) < 2 * (proportion t a b * b) + b := by exact_mod_cast hlt
  rw [abs_le]
  constructor
  · linarith
  · linarith

/-- The derived side, computed in words of 64 bits. It has to fit 32 bits itself. -/
def proportion? (t a b : Nat) : Option Nat := do
  let raised ← natural? 64 ((← natural? 64 (t * a)) + b / 2)
  if b = 0 then none else natural? 32 (raised / b)

theorem proportion?_eq (ht : t < 2 ^ 32) (ha : a < 2 ^ 32) (hb : 0 < b) (hb' : b < 2 ^ 32) :
    proportion? t a b = natural? 32 (proportion t a b) := by
  have hproduct : t * a ≤ (2 ^ 32 - 1) * (2 ^ 32 - 1) :=
    Nat.mul_le_mul (Nat.le_pred_of_lt ht) (Nat.le_pred_of_lt ha)
  unfold proportion? proportion
  rw [natural?_of_lt (by omega)]
  dsimp only [Option.bind_eq_bind, Option.bind_some]
  rw [natural?_of_lt (by omega)]
  exact if_neg (by omega)

/-- A side `b` follows from requests for its partner, of size `a` itself, as the nearest number that
keeps the proportions. -/
structure Follows (derived : Nat → Nat) (a b : Nat) : Prop where
  nearest (t d : Nat) (ht : t < 2 ^ 32) (hd : d < 2 ^ 32)
    (hround : (d : ℤ) = round ((t * b : ℚ) / a)) :
    proportion? t b a = some d ∧ derived t = d ∧ |2 * ((d : ℤ) * a - t * b)| ≤ a
  mono (t t' : Nat) (h : t ≤ t') (hfits : round ((t' * b : ℚ) / a) < 2 ^ 32) :
    derived t ≤ derived t'
  own : derived a = b

theorem proportion_follows (ha : 0 < a) (ha' : a < 2 ^ 32) (hb' : b < 2 ^ 32) :
    Follows (fun t => proportion t b a % 0x100000000) a b where
  nearest t d ht hd hround := by
    have heq : proportion t b a = d := by
      rw [← proportion_eq_round ha] at hround
      exact_mod_cast hround.symm
    refine ⟨?_, ?_, ?_⟩
    · rw [proportion?_eq ht hb' ha ha', heq, natural?_of_lt hd]
    · rw [heq]
      exact Nat.mod_eq_of_lt hd
    · rw [← heq]
      exact abs_proportion_sub_le ha t b
  mono t t' h hfits := by
    have hlt : proportion t' b a < 2 ^ 32 := by
      rw [← proportion_eq_round ha] at hfits
      exact_mod_cast hfits
    have hle := proportion_mono h b a
    omega
  own := by
    rw [proportion_self ha]
    exact Nat.mod_eq_of_lt hb'

end Proportion

/-- How many bytes the pixels of a size take, computed in words of 32 bits. -/
def byteCount? (w h : Nat) : Option Nat := do natural? 32 ((← natural? 32 (w * h)) * 4)

theorem byteCount?_eq {w h : Nat} (hfits : 4 * (w * h) < 2 ^ 32) :
    byteCount? w h = some (w * h * 4) := by
  unfold byteCount?
  rw [natural?_of_lt (by omega)]
  exact natural?_of_lt (by omega)

/-- The frame that stands for `f` at another size: it shows as long, and its pixels are scaled
ones, or all zero where `f` does not have enough bytes. -/
structure IsResampled (p : Picture) (scale : Resampler) (tw th : Nat) (f g : Frame) : Prop where
  delay : g.delay = f.delay
  scaled : p.width * p.height * 4 ≤ f.pixels.size →
    g.pixels = scale f.pixels (p.width, p.height) (tw, th)
  blank : f.pixels.size < p.width * p.height * 4 → g.pixels = Array.replicate (tw * th * 4) 0

/-- The picture `q` is `p` at a size that is never without pixels. -/
structure IsScaling (scale : Resampler) (p q : Picture) : Prop where
  width_pos : 1 ≤ q.width
  height_pos : 1 ≤ q.height
  delays : q.frames.map (·.delay) = p.frames.map (·.delay)
  same (hsize : (q.width, q.height) = (p.width, p.height)) : q = p
  frames (hsize : (q.width, q.height) ≠ (p.width, p.height)) :
    List.Forall₂ (p.IsResampled scale q.width q.height) p.frames q.frames
  bytes (hsize : (q.width, q.height) ≠ (p.width, p.height))
    (hfits : 4 * (q.width * q.height) < 2 ^ 32) :
    byteCount? q.width q.height = some (q.width * q.height * 4) ∧
      ∀ g ∈ q.frames, g.pixels.size = q.width * q.height * 4

section Resized

variable (p : Picture) {scale : Resampler} {tw th : Nat}

theorem isResampled_resample (scale : Resampler) (tw th : Nat) (f : Frame) :
    p.IsResampled scale tw th f (p.resample scale tw th f) := by
  unfold resample
  split
  case isTrue hshort => exact ⟨rfl, fun hle => absurd hshort (Nat.not_lt.2 hle), fun _ => rfl⟩
  case isFalse hlong => exact ⟨rfl, fun _ => rfl, fun hlt => absurd hlt hlong⟩

theorem size_pixels_resample (hscale : scale.Fills) (hw : 1 ≤ tw) (hh : 1 ≤ th) (f : Frame) :
    (p.resample scale tw th f).pixels.size = tw * th * 4 := by
  have h := p.isResampled_resample scale tw th f
  obtain hshort | hlong := Nat.lt_or_ge f.pixels.size (p.width * p.height * 4)
  · rw [h.blank hshort, Array.size_replicate]
  · rw [h.scaled hlong]
    exact hscale f.pixels p.width p.height tw th hlong hw hh

theorem delay_resample (scale : Resampler) (tw th : Nat) (f : Frame) :
    (p.resample scale tw th f).delay = f.delay :=
  (p.isResampled_resample scale tw th f).delay

theorem isScaling_self (hw : 1 ≤ p.width) (hh : 1 ≤ p.height) : p.IsScaling scale p where
  width_pos := hw
  height_pos := hh
  delays := rfl
  same _ := rfl
  frames hsize := absurd rfl hsize
  bytes hsize := absurd rfl hsize

theorem isScaling_map_resample (hscale : scale.Fills) (hw : 1 ≤ tw) (hh : 1 ≤ th)
    (hsize : (tw, th) ≠ (p.width, p.height)) :
    p.IsScaling scale ⟨tw, th, p.frames.map (p.resample scale tw th)⟩ where
  width_pos := hw
  height_pos := hh
  delays := by
    rw [List.map_map]
    exact List.map_congr_left fun f _ => p.delay_resample scale tw th f
  same hsame := absurd hsame hsize
  frames _ := by
    rw [List.forall₂_map_right_iff]
    exact List.forall₂_same.2 fun f _ => p.isResampled_resample scale tw th f
  bytes _ hfits := by
    refine ⟨byteCount?_eq hfits, fun g hg => ?_⟩
    obtain ⟨f, -, rfl⟩ := List.mem_map.1 hg
    exact p.size_pixels_resample hscale hw hh f

/-- Scaling has the requested sides, lifted to one pixel. -/
theorem resized_isScaling (hscale : scale.Fills) (width height : Option Nat) :
    (p.resized width height scale).width = max (p.scaledSize width height).1 1 ∧
      (p.resized width height scale).height = max (p.scaledSize width height).2 1 ∧
      p.IsScaling scale (p.resized width height scale) := by
  unfold resized
  obtain ⟨tw, th⟩ := p.scaledSize width height
  have hw : 1 ≤ max tw 1 := Nat.le_max_right tw 1
  have hh : 1 ≤ max th 1 := Nat.le_max_right th 1
  dsimp only
  split
  case isTrue hsame =>
    obtain ⟨hwidth, hheight⟩ := Prod.mk.inj hsame
    exact ⟨hwidth.symm, hheight.symm, p.isScaling_self (hwidth ▸ hw) (hheight ▸ hh)⟩
  case isFalse hsize => exact ⟨rfl, rfl, p.isScaling_map_resample hscale hw hh hsize⟩

end Resized

/-- A single requested side is taken as it is, and the other one follows from it. Each request
gives a scaling with the sides it leads to, or of one pixel where a side would have none. -/
theorem scales_to_nearest_size (p : Picture) (scale : Resampler) (hscale : scale.Fills)
    (hw : 1 ≤ p.width) (hw' : p.width < 2 ^ 32) (hh : 1 ≤ p.height) (hh' : p.height < 2 ^ 32) :
    (∀ t, (p.scaledSize (some t) none).1 = t) ∧
      Follows (fun t => (p.scaledSize (some t) none).2) p.width p.height ∧
      (∀ t, (p.scaledSize none (some t)).2 = t) ∧
      Follows (fun t => (p.scaledSize none (some t)).1) p.height p.width ∧
      ∀ width height,
        (p.resized width height scale).width = max (p.scaledSize width height).1 1 ∧
        (p.resized width height scale).height = max (p.scaledSize width height).2 1 ∧
        p.IsScaling scale (p.resized width height scale) := by
  have hwidth : max p.width 1 = p.width := Nat.max_eq_left hw
  have hheight : max p.height 1 = p.height := Nat.max_eq_left hh
  refine ⟨fun _ => rfl, ?_, fun _ => rfl, ?_, p.resized_isScaling hscale⟩
  · simp only [scaledSize, hwidth, hheight]
    exact proportion_follows hw hw' hh'
  · simp only [scaledSize, hwidth, hheight]
    exact proportion_follows hh hh' hw'

/-- A strip of one row that lacks its bytes: half its width still has a row by rounding, a width
of one has it only by the lift to one pixel. -/
theorem scales_to_nearest_size_strip :
    let p : Picture := ⟨2 ^ 32 - 1, 1, [⟨#[], 40⟩]⟩
    (p.scaledSize none (some 1)).1 = 2 ^ 32 - 1 ∧ (p.scaledSize (some (2 ^ 31)) none).2 = 1 ∧
      (p.scaledSize (some 1) none).2 = 0 ∧ (p.resized (some 1) none).height = 1 ∧
      ∀ g ∈ (p.resized (some 1) none).frames, g.pixels.size = 4 := by
  intro p
  obtain ⟨-, hheight, -, hwidth, hscaled⟩ :=
    p.scales_to_nearest_size nearestPixel nearestPixel_fills (by decide) (by decide) (by decide)
      (by decide)
  have hone : (p.scaledSize (some 1) none).2 = 0 :=
    (hheight.nearest 1 0 (by decide) (by decide) (by norm_num [p, round_eq])).2.1
  obtain ⟨hw, hh, h⟩ := hscaled (some 1) none
  rw [hone] at hh
  have hwidthOne : (p.resized (some 1) none).width = 1 := hw
  refine ⟨hwidth.own, ?_, hone, hh, ?_⟩
  · exact (hheight.nearest (2 ^ 31) 1 (by decide) (by decide) (by norm_num [p, round_eq])).2.1
  · have hbytes := (h.bytes (by rw [hwidthOne]; decide) (by rw [hwidthOne, hh]; decide)).2
    rwa [hwidthOne, hh] at hbytes

end Picture

end PanelSkin
