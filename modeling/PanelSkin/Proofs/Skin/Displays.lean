import PanelSkin.Proofs.Skin.Answers
import PanelSkin.Proofs.Skin.Faithful

/-!
Displays do not disturb each other. At each moment there is one world of answers for all displays,
whatever was shown before: looking something up changes the shelf, but not what is looked up. So
what a display shows depends on its own widgets, which only showing it changes.
-/

namespace PanelSkin

/-- Showing a display on a surface of some size, or asking at some time whether to show it again,
in the environment of that moment. -/
inductive Use where
  | render (env : Environment) (id : String) (width height : Nat)
  | needsUpdate (env : Environment) (id : String) (now : Nat)

namespace Use

def env : Use → Environment
  | .render env .. | .needsUpdate env .. => env

/-- Whether a display is shown. -/
def renders (id : String) : Use → Bool
  | .render _ shown _ _ => shown == id
  | .needsUpdate .. => false

end Use

/-- Both environments load the same pictures and fonts. -/
structure Environment.LoadsAs (env other : Environment) : Prop where
  loadPicture : env.loadPicture = other.loadPicture
  resampler : env.resampler = other.resampler
  loadFont : env.loadFont = other.loadFont

theorem Environment.LoadsAs.faithful {env other : Environment} (h : env.LoadsAs other)
    {base : FilePath} {fonts : FontTable} {shelf : Shelf} :
    shelf.Faithful env base fonts ↔ shelf.Faithful other base fonts := by
  rw [Shelf.faithful_iff, Shelf.faithful_iff, h.resampler, h.loadPicture, h.loadFont]

namespace Skin

/-- What is drawn in the course of some uses, each drawing with the display that it is of. -/
def outcomes (s : Skin) : List Use → Option (List (String × Except SkinError (List DrawCall)))
  | [] => some []
  | .render env id width height :: rest => do
    let shown ← s.render env id width height
    return (id, shown.1) :: (← shown.2.outcomes rest)
  | .needsUpdate env id now :: rest => do
    let asked ← s.needsUpdate env id now
    asked.2.outcomes rest

/-- The skin with other displays, and with something else on its shelf. -/
def holding (s : Skin) (displays : List Display) (shelf : Shelf) : Skin :=
  { s with displays, shelf }

/-- The skin with an empty cache for some number of pictures. -/
def withCache (s : Skin) (capacity : Nat) : Skin :=
  s.holding s.displays { s.shelf with pictures := .empty s.base capacity }

theorem find?_replaceWidgets {displays : List Display} {id : String} {d : Display}
    (h : displays.find? (·.id == id) = some d) (widgets : List Widget) :
    (replaceWidgets id widgets displays).find? (·.id == id) = some { d with widgets } := by
  induction displays with
  | nil => cases h
  | cons first rest ih =>
      unfold replaceWidgets
      by_cases hid : first.id = id
      · obtain rfl : first = d := by simpa [hid] using h
        simp [hid]
      · have hrest : rest.find? (·.id == id) = some d := by simpa [hid] using h
        simpa [hid] using ih hrest

theorem find?_replaceWidgets_of_ne {id other : String} (hother : id ≠ other)
    (widgets : List Widget) (displays : List Display) :
    (replaceWidgets id widgets displays).find? (·.id == other) =
      displays.find? (·.id == other) := by
  induction displays with
  | nil => rfl
  | cons first rest ih =>
      unfold replaceWidgets
      split
      · rename_i hid
        simp [hid, hother]
      · simp [List.find?_cons, ih]

/-- What is drawn, and the displays afterwards, where all lookups have the answers of a world. -/
def drawnIn (world : Surroundings Id) (displays : List Display) (id : String) (screen : Rect)
    (now : Nat) : Except SkinError (List DrawCall) × List Display :=
  match displays.find? (·.id == id) with
  | none => (.error (.unknownDisplay id), displays)
  | some d =>
    let drawn := Widget.drawAll d.widgets world screen now
    (.ok drawn.2, replaceWidgets id drawn.1 displays)

section Drawn

variable {world : Surroundings Id} {displays others : List Display} {id : String} {screen : Rect}
  {now : Nat}

/-- What is drawn of a display depends on that display alone, and so does what it is like then. -/
theorem drawnIn_congr (world : Surroundings Id) (screen : Rect) (now : Nat)
    (h : displays.find? (·.id == id) = others.find? (·.id == id)) :
    (drawnIn world displays id screen now).1 = (drawnIn world others id screen now).1 ∧
      (drawnIn world displays id screen now).2.find? (·.id == id) =
        (drawnIn world others id screen now).2.find? (·.id == id) := by
  unfold drawnIn
  cases hfound : others.find? (·.id == id) with
  | none =>
      rw [hfound] at h
      rw [h]
      exact ⟨rfl, h.trans hfound.symm⟩
  | some d =>
      rw [hfound] at h
      rw [h]
      refine ⟨rfl, ?_⟩
      dsimp only
      rw [find?_replaceWidgets h, find?_replaceWidgets hfound]

theorem find?_drawnIn_of_ne {other : String} (hother : id ≠ other) :
    (drawnIn world displays id screen now).2.find? (·.id == other) =
      displays.find? (·.id == other) := by
  unfold drawnIn
  split
  · rfl
  · exact find?_replaceWidgets_of_ne hother _ _

end Drawn

section Moment

variable {s : Skin} (env : Environment) {valid : Shelf → Prop} {world : Surroundings Id}
  (displays : List Display) {shelf : Shelf}

theorem evaluate_in_world {α : Type} {action : Context → Evaluation α} {value : α}
    (h : (steadily (s.cells.Still valid)).rel value (action (s.context env)))
    (hshelf : valid shelf) : ∃ shelf', valid shelf' ∧ (s.holding displays shelf).evaluate env action =
      some (value, s.holding displays shelf') := by
  obtain ⟨cells, shelf', ⟨rfl, hshelf'⟩, hrun⟩ := h s.cells shelf ⟨rfl, hshelf⟩
  refine ⟨shelf', hshelf', ?_⟩
  change (action (s.context env) s.cells shelf).map _ = _
  rw [hrun]
  rfl

variable (hworld : (steadily (s.cells.Still valid)).Surroundings world (s.context env).surroundings)
  (hshelf : valid shelf)

include hworld hshelf

theorem render_in_world (id : String) (width height : Nat) :
    let drawn := drawnIn world displays id (Rect.sized 0 0 width height) env.host.now
    ∃ shelf', valid shelf' ∧ (s.holding displays shelf).render env id width height =
      some (drawn.1, s.holding drawn.2 shelf') := by
  have hdisplay : (s.holding displays shelf).display? id = displays.find? (·.id == id) := rfl
  dsimp only
  unfold render drawnIn
  rw [hdisplay]
  cases displays.find? (·.id == id) with
  | none => exact ⟨shelf, hshelf, rfl⟩
  | some d =>
      let draw (c : Context) : Evaluation (List Widget × List DrawCall) :=
        Widget.drawAll d.widgets c.surroundings (Rect.sized 0 0 width height) env.host.now
      have hdrawn : (steadily (s.cells.Still valid)).rel
          (Widget.drawAll d.widgets world (Rect.sized 0 0 width height) env.host.now)
          (draw (s.context env)) :=
        Correspondence.drawAll_related (fun child _ => Correspondence.draw_related child) _ _
          hworld _ _
      obtain ⟨shelf', hshelf', hrun⟩ := evaluate_in_world env displays hdrawn hshelf
      refine ⟨shelf', hshelf', ?_⟩
      dsimp only [draw] at hrun ⊢
      rw [hrun]
      rfl

theorem needsUpdate_in_world (id : String) (now : Nat) :
    ∃ needed shelf', valid shelf' ∧ (s.holding displays shelf).needsUpdate env id now =
      some (needed, s.holding displays shelf') := by
  unfold needsUpdate
  split
  · exact ⟨false, shelf, hshelf, rfl⟩
  · rename_i d hfound
    let ask (c : Context) : Evaluation Bool := Widget.anyNeedsUpdate c.surroundings now d.widgets
    have hneeded : (steadily (s.cells.Still valid)).rel (Widget.anyNeedsUpdate world now d.widgets)
        (ask (s.context env)) :=
      Correspondence.anyNeedsUpdate_related
        (fun child _ _ _ h => Correspondence.needsUpdate_related child now h) hworld
    exact ⟨_, evaluate_in_world env displays hneeded hshelf⟩

end Moment

section Run

variable {s s' : Skin} {env : Environment} {rest : List Use}
  {drawn : List (String × Except SkinError (List DrawCall))}

theorem outcomes_render {id : String} {width height : Nat}
    {outcome : Except SkinError (List DrawCall)}
    (hrender : s.render env id width height = some (outcome, s'))
    (hrest : s'.outcomes rest = some drawn) :
    s.outcomes (.render env id width height :: rest) = some ((id, outcome) :: drawn) := by
  rw [outcomes, hrender]
  change (s'.outcomes rest).bind _ = _
  rw [hrest]
  rfl

theorem outcomes_needsUpdate {id : String} {now : Nat} {needed : Bool}
    (hasked : s.needsUpdate env id now = some (needed, s')) :
    s.outcomes (.needsUpdate env id now :: rest) = s'.outcomes rest := by
  rw [outcomes, hasked]
  rfl

end Run

/-- The skin with other displays around the one, and with something else on its shelf, draws the
one alike even if nothing else is done with it. -/
theorem outcomes_holding {s : Skin} {valid : Shelf → Prop} (id : String) {history : List Use}
    (hworlds : ∀ use ∈ history, ∃ world,
      (steadily (s.cells.Still valid)).Surroundings world (s.context use.env).surroundings)
    {displays : List Display} {shelf : Shelf} (hshelf : valid shelf) :
    ∃ drawn, (s.holding displays shelf).outcomes history = some drawn ∧
      ∀ others shelf', displays.find? (·.id == id) = others.find? (·.id == id) → valid shelf' →
        (s.holding others shelf').outcomes (history.filter (·.renders id)) =
          some (drawn.filter (·.1 == id)) := by
  induction history generalizing displays shelf with
  | nil => exact ⟨[], rfl, fun _ _ _ _ => rfl⟩
  | cons use rest ih =>
      obtain ⟨⟨world, hworld⟩, hrest⟩ := List.forall_mem_cons.mp hworlds
      cases use with
      | needsUpdate env shown now =>
          obtain ⟨needed, after, hafter, hasked⟩ :=
            needsUpdate_in_world env displays hworld hshelf shown now
          obtain ⟨drawn, hdrawn, hothers⟩ := ih hrest hafter
          exact ⟨drawn, (outcomes_needsUpdate hasked).trans hdrawn, hothers⟩
      | render env shown width height =>
          let screen := Rect.sized 0 0 width height
          let now := env.host.now
          obtain ⟨after, hafter, hshown⟩ :=
            render_in_world env displays hworld hshelf shown width height
          obtain ⟨drawn, hdrawn, hothers⟩ := ih hrest hafter
          refine ⟨_, outcomes_render hshown hdrawn, ?_⟩
          intro others shelf' hsame hshelf'
          by_cases hid : shown = id
          -- both draw the display, and it is the same again afterwards
          · subst hid
            obtain ⟨after', hafter', hshown'⟩ :=
              render_in_world env others hworld hshelf' shown width height
            obtain ⟨hcalls, hstill⟩ := drawnIn_congr world screen now hsame
            simp only [List.filter_cons, Use.renders, beq_self_eq_true, if_true]
            rw [hcalls]
            exact outcomes_render hshown' (hothers _ after' hstill hafter')
          -- another display is drawn in the one skin alone
          · have hstill : (drawnIn world displays shown screen now).2.find? (·.id == id) =
                others.find? (·.id == id) := (find?_drawnIn_of_ne hid).trans hsame
            simpa [Use.renders, hid] using hothers others shelf' hstill hshelf'

theorem Stocked.withCache {s : Skin} {env : Environment} (h : s.Stocked env) (capacity : Nat) :
    (s.context env).Stocked (s.withCache capacity).shelf where
  directory := rfl
  pictures := PictureCache.Faithful.nothing rfl rfl
  fonts := h.fonts

/-- A host whose data are the time, with every picture and font there. -/
def clockwork (now : Nat) : Environment where
  host :=
    { tokenId := fun name => if name = "time" then some 0 else none
      token := fun _ _ => .number (Int64.ofNat now), now }
  skinFile := fun _ => .error .missing
  loadPicture := PictureCache.loadsAllBut ""
  loadFont := fun _ _ => .ok ⟨6, 8, 7, 0, 8, fun _ => 6, fun _ => none⟩

end Skin

end PanelSkin
