import PanelSkin.Proofs.Graphics.Canvas
import PanelSkin.Proofs.Graphics.Rounded
import PanelSkin.Proofs.Graphics.Window

/-!
Drawing on a small canvas and on a large one. Most shapes decide pixel by pixel what is theirs, and
the bounds of the surface only take away the pixels outside. Then the small canvas shows a part of
what the large one shows, however often colors have been mixed.
-/

namespace PanelSkin

namespace Region

variable {inside : Region} {rect bounds bounds' : Rect} {filled : Bool} {p : Point}

theorem isSome_points?_of_within (hwithin : bounds.Within bounds')
    (h : (inside.points? rect filled bounds').isSome) :
    (inside.points? rect filled bounds).isSome := by
  rw [isSome_points?_iff] at h ⊢
  intro p hp
  obtain ⟨hrect, hbounds⟩ := Rect.mem_points_intersect.mp hp
  exact h p (Rect.mem_points_intersect.mpr ⟨hrect, hwithin.contains hbounds⟩)

/-- A pixel within the bounds is drawn or not whatever the bounds are. -/
theorem count_points_eq (h : (inside.points? rect filled bounds).isSome)
    (h' : (inside.points? rect filled bounds').isSome) (hin : bounds.contains p.x p.y = true)
    (hin' : bounds'.contains p.x p.y = true) :
    (inside.points rect filled bounds).count p = (inside.points rect filled bounds').count p := by
  rw [count_points h, count_points h', hin, hin']

end Region

theorem Rect.count_points_intersect_eq {rect bounds bounds' : Rect} {p : Point}
    (hin : bounds.contains p.x p.y = true) (hin' : bounds'.contains p.x p.y = true) :
    (rect.intersect bounds).points.count p = (rect.intersect bounds').points.count p := by
  rw [count_points, count_points, contains_intersect, contains_intersect, hin, hin']

namespace DrawCall

variable {bounds bounds' : Rect} {call : DrawCall} {x y : Nat}

/-- A call for a shape that decides pixel by pixel what is its own. Lines are cut at the bounds
before they are drawn, and so are the sides of a rectangle; slopes are left aside. -/
def DecidesByPixel : DrawCall → Prop
  | .rectangle _ _ filled => filled = true
  | .roundRectangle r _ _ radius => ∃ n, r.effectiveRadius? radius = some n ∧ 1 ≤ n
  | .line .. | .slope .. => False
  | .pixel .. | .ellipse .. | .picture .. | .text _ => True

/-- What can be carried out on a surface can be carried out on a smaller one. -/
theorem completes_of_within (hwithin : bounds.Within bounds')
    (hcompletes : call.completes bounds' = true) : call.completes bounds = true := by
  cases call with
  | ellipse r color filled quadrant =>
      obtain hempty | hsome := (Bool.or_eq_true _ _).mp hcompletes
      · exact (Bool.or_eq_true _ _).mpr (.inl hempty)
      · exact (Bool.or_eq_true _ _).mpr (.inr (Region.isSome_points?_of_within hwithin hsome))
  | _ => exact hcompletes

theorem dotsOn_map_eq {points points' : List Point}
    (hcount : points.count ⟨x, y⟩ = points'.count ⟨x, y⟩) (color : Color) :
    Canvas.dotsOn (points.map fun p => ⟨p.x, p.y, color⟩) x y
      = Canvas.dotsOn (points'.map fun p => ⟨p.x, p.y, color⟩) x y := by
  rw [Canvas.dotsOn_map, Canvas.dotsOn_map, hcount]

/-- The dots on a pixel do not depend on the bounds, if the pixel is within. -/
theorem dotsOn_dots (hcall : call.DecidesByPixel) (hcompletes : call.completes bounds = true)
    (hcompletes' : call.completes bounds' = true) (hin : bounds.contains x y = true)
    (hin' : bounds'.contains x y = true) :
    Canvas.dotsOn (call.dots bounds) x y = Canvas.dotsOn (call.dots bounds') x y := by
  cases call with
  | pixel => rfl
  | line => exact hcall.elim
  | slope => exact hcall.elim
  | picture => rfl
  | text => rfl
  | rectangle r color filled =>
      obtain rfl : filled = true := hcall
      apply dotsOn_map_eq
      unfold Rect.drawn
      split
      · rfl
      · exact Rect.count_points_intersect_eq hin hin'
  | roundRectangle r color filled radius =>
      obtain ⟨n, hradius, hpositive⟩ := hcall
      apply dotsOn_map_eq
      rw [Rect.drawnRounded_of_effective hradius hpositive,
        Rect.drawnRounded_of_effective hradius hpositive]
      have hsome (bounds : Rect) : ((r.rounded n).points? r filled bounds).isSome :=
        Region.isSome_points?_of_total (r.rounded_apply n) r filled bounds
      exact Region.count_points_eq (hsome bounds) (hsome bounds') hin hin'
  | ellipse r color filled quadrant =>
      apply dotsOn_map_eq
      unfold Rect.drawnEllipse
      split
      · rfl
      · rename_i hsome
        have h : ((r.elliptic quadrant).points? r filled bounds).isSome :=
          ((Bool.or_eq_true _ _).mp hcompletes).resolve_left hsome
        have h' : ((r.elliptic quadrant).points? r filled bounds').isSome :=
          ((Bool.or_eq_true _ _).mp hcompletes').resolve_left hsome
        exact Region.count_points_eq h h' hin hin'

end DrawCall

namespace Canvas

/-- A canvas that is not larger than another one and shows what that one shows there. -/
structure CropOf (c c' : Canvas) : Prop where
  width : c.width ≤ c'.width
  height : c.height ≤ c'.height
  pixels : ∀ {x y : Nat}, x < c.width → y < c.height →
    ∃ color, c.pixel? x y = some color ∧ c'.pixel? x y = some color

section Crop

variable {c c' : Canvas} {x y : Nat}

theorem cropOf_filled {width height width' height' : Nat} (hwidth : width ≤ width')
    (hheight : height ≤ height') (background : Color) :
    (filled width height background).CropOf (filled width' height' background) where
  width := hwidth
  height := hheight
  pixels hx hy := ⟨background, pixel?_filled hx hy,
    pixel?_filled (hx.trans_le hwidth) (hy.trans_le hheight)⟩

theorem CropOf.within (hcrop : c.CropOf c') : c.bounds.Within c'.bounds := by
  have hwidth := hcrop.width
  have hheight := hcrop.height
  constructor <;> dsimp only [bounds, Rect.sized] <;> omega

theorem CropOf.draw (hcrop : c.CropOf c') {call : DrawCall} (hcall : call.DecidesByPixel)
    (hcompletes : call.completes c'.bounds = true) : (c.draw call).CropOf (c'.draw call) := by
  obtain ⟨hwidth, hheight⟩ := c.size_draw call
  obtain ⟨hwidth', hheight'⟩ := c'.size_draw call
  constructor
  case width => rw [hwidth, hwidth']; exact hcrop.width
  case height => rw [hheight, hheight']; exact hcrop.height
  case pixels =>
    intro x y hx hy
    rw [hwidth] at hx
    rw [hheight] at hy
    have hin := contains_bounds hx hy
    obtain ⟨color, hpixel, hpixel'⟩ := hcrop.pixels hx hy
    refine ⟨mixed (dotsOn (call.dots c.bounds) x y) color, ?_, ?_⟩
    · rw [Canvas.draw, pixel?_plotAll, hpixel, Option.map_some]
    · rw [Canvas.draw, pixel?_plotAll, hpixel', Option.map_some, DrawCall.dotsOn_dots hcall
        (DrawCall.completes_of_within hcrop.within hcompletes) hcompletes hin
        (hcrop.within.contains hin)]

theorem CropOf.drawAll {calls : List DrawCall} (hcrop : c.CropOf c')
    (hcalls : ∀ call ∈ calls, call.DecidesByPixel ∧ call.completes c'.bounds = true) :
    (c.drawAll calls).CropOf (c'.drawAll calls) := by
  induction calls generalizing c c' with
  | nil => exact hcrop
  | cons first rest ih =>
      obtain ⟨⟨hfirst, hcompletes⟩, hrest⟩ := List.forall_mem_cons.mp hcalls
      -- drawing leaves the bounds as they are, so the other calls still complete
      refine ih (hcrop.draw hfirst hcompletes) ?_
      rwa [bounds_draw]

end Crop

end Canvas

end PanelSkin
