import PanelSkin.Proofs.Expr.Guard
import PanelSkin.Proofs.Widget.Correspondence

/-!
What is drawn again and again. A showing is one drawing, and everything outside of what is drawn
can differ from one showing to the next. An occasion is a showing at which all lookups have the
answers of a world; drawing on some occasions comes to the same as drawing in their worlds, where
the answers are there at once.
-/

namespace PanelSkin

/-- One drawing: what can be looked up then, the place, and the time. -/
structure Showing (m : Type → Type) (Place : Type) where
  surroundings : Surroundings m
  place : Place
  now : Nat

section Showing

variable {m : Type → Type} [Monad m] {α Place : Type}

def TextBox.drawAt (t : TextBox) (s : Showing m Look) : m (TextBox × List DrawCall) :=
  t.draw s.surroundings s.place s.now

def PictureBox.drawAt (b : PictureBox) (s : Showing m Look) : m (PictureBox × List DrawCall) :=
  b.draw s.surroundings s.place s.now

def Widget.drawAt (w : Widget) (s : Showing m Rect) : m (Widget × List DrawCall) :=
  w.draw s.surroundings s.place s.now

def Widget.drawAllAt (widgets : List Widget) (s : Showing m Rect) :
    m (List Widget × List DrawCall) :=
  drawAll widgets s.surroundings s.place s.now

/-- What something has become after some showings, of which the latest comes first. -/
def afterShowings (draw : α → Showing m Place → m (α × List DrawCall)) (a : α) :
    List (Showing m Place) → m α
  | [] => pure a
  | last :: earlier => do
    let (a, _) ← draw (← afterShowings draw a earlier) last
    return a

/-- What every drawing of some showings keeps holds after all of them. -/
theorem afterShowings_invariant {draw : α → Showing Id Place → Id (α × List DrawCall)}
    {P : α → Prop} {a : α} (ha : P a) {history : List (Showing Id Place)}
    (hstep : ∀ s ∈ history, ∀ a, P a → P (draw a s).1) : P (afterShowings draw a history) := by
  induction history with
  | nil => exact ha
  | cons last earlier ih =>
      obtain ⟨hlast, hearlier⟩ := List.forall_mem_cons.mp hstep
      exact hlast _ (ih hearlier)

end Showing

/-- A showing at which all lookups answer as in a world, from every valid state. -/
structure Occasion {σ : Type} (valid : Cells → σ → Prop) (Place : Type) where
  world : Surroundings Id
  surroundings : Surroundings (Run σ)
  answers : (steadily valid).Surroundings world surroundings
  place : Place
  now : Nat

namespace Occasion

variable {σ : Type} {valid : Cells → σ → Prop} {α Place : Type}

/-- An occasion on which nothing but the answers of a world can be looked up. -/
def fixed (world : Surroundings Id) (place : Place) (now : Nat) : Occasion valid Place where
  world
  surroundings := .fixed world
  answers := .fixed world
  place
  now

/-- The showing in the world of an occasion. -/
def inWorld (o : Occasion valid Place) : Showing Id Place := ⟨o.world, o.place, o.now⟩

/-- The showing as it takes place. -/
def inRun (o : Occasion valid Place) : Showing (Run σ) Place := ⟨o.surroundings, o.place, o.now⟩

theorem text_related (t : TextBox) (o : Occasion valid Look) :
    (steadily valid).rel (t.drawAt o.inWorld) (t.drawAt o.inRun) :=
  o.answers.drawText t o.place o.now

theorem picture_related (b : PictureBox) (o : Occasion valid Look) :
    (steadily valid).rel (b.drawAt o.inWorld) (b.drawAt o.inRun) :=
  o.answers.drawPicture b o.place o.now

theorem widget_related (w : Widget) (o : Occasion valid Rect) :
    (steadily valid).rel (w.drawAt o.inWorld) (w.drawAt o.inRun) :=
  Correspondence.draw_related w o.world o.surroundings o.answers o.place o.now

theorem widgets_related (widgets : List Widget) (o : Occasion valid Rect) :
    (steadily valid).rel (Widget.drawAllAt widgets o.inWorld) (Widget.drawAllAt widgets o.inRun) :=
  Correspondence.drawAll_related (fun child _ => Correspondence.draw_related child) o.world
    o.surroundings o.answers o.place o.now

/-- What becomes of something on some occasions is what becomes of it in their worlds, if that is
so on each occasion. -/
theorem after_related {drawn : α → Showing Id Place → Id (α × List DrawCall)}
    {run : α → Showing (Run σ) Place → Run σ (α × List DrawCall)}
    (h : ∀ a (o : Occasion valid Place), (steadily valid).rel (drawn a o.inWorld) (run a o.inRun))
    (a : α) (history : List (Occasion valid Place)) :
    (steadily valid).rel (afterShowings drawn a (history.map inWorld))
      (afterShowings run a (history.map inRun)) := by
  induction history with
  | nil => exact (steadily valid).rel_pure a
  | cons last earlier ih =>
      apply (steadily valid).rel_bind ih
      intro before
      apply (steadily valid).rel_bind (h before last)
      exact fun drawn => (steadily valid).rel_pure drawn.1

/-- The same of the drawing that comes last. -/
theorem last_related {drawn : α → Showing Id Place → Id (α × List DrawCall)}
    {run : α → Showing (Run σ) Place → Run σ (α × List DrawCall)}
    (h : ∀ a (o : Occasion valid Place), (steadily valid).rel (drawn a o.inWorld) (run a o.inRun))
    (a : α) (earlier : List (Occasion valid Place)) (last : Occasion valid Place) :
    (steadily valid).rel (drawn (afterShowings drawn a (earlier.map inWorld)) last.inWorld)
      (afterShowings run a (earlier.map inRun) >>= (run · last.inRun)) :=
  (steadily valid).rel_bind (after_related h a earlier) fun before => h before last

end Occasion

end PanelSkin
