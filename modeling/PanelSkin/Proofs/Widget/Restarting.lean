import PanelSkin.Proofs.Widget.Playing

/-!
Picture boxes whose path, pictures and loop mode are others at every drawing. A box knows what it
plays by the path that it had last and that was not empty: with another path a picture starts at
its first frame, also when nothing was found at the path before, and with the same path it goes on,
also when there was no path in between.
-/

namespace PanelSkin

/-- Where a picture is drawn, and how it plays there. -/
structure Scene where
  look : Look
  loop : LoopMode

/-- The showing without the way of playing. -/
def Showing.seen {m : Type → Type} (s : Showing m Scene) : Showing m Look :=
  ⟨s.surroundings, s.place.look, s.now⟩

namespace PlayState

/-- The state of a picture at its first frame, if it is there, since some time. -/
def begun (path : String) (picture : Option Picture) (start : Nat) : PlayState where
  path := some path
  frameCount := picture.elim 0 (·.frameCount)
  delay := picture.elim 0 (·.delay 0)
  lastChange := start

variable {p : Picture} (hdelay : ∀ frame ∈ p.frames, 1 ≤ frame.delay) (path : String)
  (loop : LoopMode) (start now : Nat)

theorem begun_isPlaying :
    (begun path (some p) start).isPlaying loop = loop.goesOn p.frameCount 0 := by
  cases loop with
  | never => rfl
  | always => rfl
  | once =>
      change (decide (1 < p.frameCount) && true) =
        (decide (1 < p.frameCount) && decide (0 < p.frameCount))
      by_cases hsome : 1 < p.frameCount
      · simp [hsome, Nat.lt_of_succ_lt hsome]
      · simp [hsome]

include hdelay in
/-- The next frame is due when the first one has stood for its time. -/
theorem begun_isDue : (begun path (some p) start).isDue loop now =
    (loop.goesOn p.frameCount 0 && decide (start + p.delay 0 ≤ now)) := by
  rw [isDue, begun_isPlaying]
  change (_ && decide (p.delay 0 ≤ now - start)) = _
  by_cases hsome : 1 < p.frameCount
  · have hpos := Picture.delay_pos hdelay (Nat.lt_of_succ_lt hsome)
    rw [decide_eq_decide.mpr (show p.delay 0 ≤ now - start ↔ start + p.delay 0 ≤ now by omega)]
  · simp [LoopMode.goesOn, hsome]

include hdelay in
/-- A picture that has just appeared shows its first frame. -/
theorem played_of_new :
    ({ path := some path, lastChange := now } : PlayState).played loop p now =
      begun path (some p) now := by
  have hearly : (begun path (some p) now).isDue loop now = false := by
    rw [begun_isDue hdelay]
    by_cases hsome : 1 < p.frameCount
    · have hpos := Picture.delay_pos hdelay (Nat.lt_of_succ_lt hsome)
      rw [decide_eq_false (show ¬ now + p.delay 0 ≤ now by omega), Bool.and_false]
    · simp [LoopMode.goesOn, hsome]
  have hrests : (({ path := some path, frameCount := p.frameCount, lastChange := now } :
      PlayState).isPlaying loop && decide (p.delay 0 ≤ now - now)) = false := hearly
  unfold played ofFrames
  dsimp only
  rw [ite_self, hrests]
  rfl

end PlayState

namespace PictureBox

section

variable {m : Type → Type} [Monad m]

/-- Draws a picture box that plays in the loop mode of a showing. -/
def playAt (b : PictureBox) (s : Showing m Scene) : m (PictureBox × List DrawCall) :=
  ({ b with loop := s.place.loop } : PictureBox).drawAt s.seen

end

/-- The path that was not empty last, of some showings. -/
def lastPath (b : PictureBox) : List (Showing Id Scene) → Option String
  | [] => b.state.path
  | last :: earlier =>
    let path : String := b.pathNow last.surroundings
    if path.isEmpty then b.lastPath earlier else some path

section Showing

variable {b : PictureBox} {s : Showing Id Scene}

theorem playAt_of_empty (hempty : String.isEmpty (b.pathNow s.surroundings) = true) :
    b.playAt s = ({ b with loop := s.place.loop }, []) := draw_of_empty _ _ hempty

theorem playAt_of_missing {path : String} (hpath : b.pathNow s.surroundings = path)
    (hsome : path.isEmpty = false) (hmissing : b.pictureAt s.seen = none) :
    b.playAt s =
      ({ b with loop := s.place.loop, state := b.state.showing path s.now }, []) := by
  subst hpath
  exact draw_of_missing _ _ hsome hmissing

theorem playAt_of_there {path : String} (hpath : b.pathNow s.surroundings = path)
    (hsome : path.isEmpty = false) {p : Picture} (hp : b.pictureAt s.seen = some p) :
    b.playAt s =
      let state := (b.state.showing path s.now).played s.place.loop p s.now
      ({ b with loop := s.place.loop, state },
        [.picture s.place.look.box.x1 s.place.look.box.y1 p state.frame s.place.look.box]) := by
  subst hpath
  exact draw_of_there (b := { b with loop := s.place.loop }) _ _ hsome hp

/-- With another path a picture starts at its first frame. -/
theorem playAt_of_new {path : String} (hpath : b.pathNow s.surroundings = path)
    (hsome : path.isEmpty = false) (hnew : b.state.path ≠ some path)
    (hdelays : ∀ p, b.pictureAt s.seen = some p → ∀ frame ∈ p.frames, 1 ≤ frame.delay) :
    b.playAt s =
      let picture := b.pictureAt s.seen
      let state := PlayState.begun path picture s.now
      let box := s.place.look.box
      ({ b with loop := s.place.loop, state },
        picture.toList.map (.picture box.x1 box.y1 · 0 box)) := by
  have hshowing : b.state.showing path s.now = { path := some path, lastChange := s.now } :=
    if_neg hnew
  cases hpicture : b.pictureAt s.seen with
  | none =>
      rw [playAt_of_missing hpath hsome hpicture, hshowing]
      rfl
  | some p =>
      rw [playAt_of_there hpath hsome hpicture, hshowing,
        PlayState.played_of_new (hdelays p hpicture)]
      rfl

/-- With the path that was there before a picture goes on. -/
theorem playAt_of_shown {path : String} (hpath : b.pathNow s.surroundings = path)
    (hsome : path.isEmpty = false) (hshown : b.state.path = some path) :
    (b.playAt s).1.state = match b.pictureAt s.seen with
      | none => b.state
      | some p => b.state.played s.place.loop p s.now := by
  have hshowing : b.state.showing path s.now = b.state := PlayState.showing_of_shown hshown
  cases hpicture : b.pictureAt s.seen with
  | none => rw [playAt_of_missing hpath hsome hpicture, hshowing]
  | some p => rw [playAt_of_there hpath hsome hpicture, hshowing]

/-- A path that is not empty is kept, whether or not a picture is there. -/
theorem playAt_path (b : PictureBox) (s : Showing Id Scene) :
    (b.playAt s).1.state.path = if String.isEmpty (b.pathNow s.surroundings) then b.state.path
      else some (b.pathNow s.surroundings) := by
  cases hempty : String.isEmpty (b.pathNow s.surroundings) with
  -- Drawing ends before the path is compared, so the state still has the path before.
  | true => rw [playAt_of_empty hempty, if_pos rfl]
  | false =>
      rw [if_neg Bool.false_ne_true]
      have hshowing := b.state.showing_path (b.pathNow s.surroundings) s.now
      cases hpicture : b.pictureAt s.seen with
      | none => rw [playAt_of_missing rfl hempty hpicture, hshowing]
      | some p =>
          rw [playAt_of_there rfl hempty hpicture]
          exact (PlayState.played_spec _ _ _ _).1.trans hshowing

end Showing

section Run

variable (b : PictureBox) (history : List (Showing Id Scene))

theorem after_path_scale :
    (afterShowings playAt b history : PictureBox).path = b.path ∧
      (afterShowings playAt b history : PictureBox).scale = b.scale := by
  have hstep : ∀ s ∈ history, ∀ a : PictureBox, a.path = b.path ∧ a.scale = b.scale →
      (a.playAt s).1.path = b.path ∧ (a.playAt s).1.scale = b.scale := by
    intro s _ a ⟨hpath, hscale⟩
    have hkeeps : (a.playAt s).1.path = a.path ∧ (a.playAt s).1.scale = a.scale :=
      draw_path_scale (b := { a with loop := s.place.loop }) s.place.look s.now
    exact ⟨hkeeps.1.trans hpath, hkeeps.2.trans hscale⟩
  exact afterShowings_invariant (P := fun a : PictureBox => a.path = b.path ∧ a.scale = b.scale)
    ⟨rfl, rfl⟩ hstep

theorem pathNow_after (world : Surroundings Id) :
    (afterShowings playAt b history : PictureBox).pathNow world = b.pathNow world := by
  unfold pathNow
  rw [(after_path_scale b history).1]

theorem pictureAt_after (s : Showing Id Look) :
    (afterShowings playAt b history : PictureBox).pictureAt s = b.pictureAt s := by
  unfold pictureAt
  rw [pathNow_after, (after_path_scale b history).2]

/-- What a box knows of the past. -/
theorem path_after : (afterShowings playAt b history : PictureBox).state.path =
    b.lastPath history := by
  induction history with
  | nil => rfl
  | cons last earlier ih =>
      have hlast := (afterShowings playAt b earlier : PictureBox).playAt_path last
      rw [pathNow_after, ih] at hlast
      exact hlast

end Run

variable {σ : Type} {valid : Cells → σ → Prop}

theorem plays_related (b : PictureBox) (o : Occasion valid Scene) :
    (steadily valid).rel (b.playAt o.inWorld) (b.playAt o.inRun) :=
  o.answers.drawPicture { b with loop := o.place.loop } o.place.look o.now

/-- A picture box starts anew when its path is another than the one that was not empty last: the
first frame shows, no end was reached, and the frame stands from now on. Otherwise it goes on from
where it was. -/
theorem restarts_at_other_path (b : PictureBox) (earlier : List (Occasion valid Scene))
    (last : Occasion valid Scene) (hsome : String.isEmpty (b.pathNow last.world) = false) :
    let before : PictureBox := afterShowings playAt b (earlier.map Occasion.inWorld)
    let drawn := before.playAt last.inWorld
    let path : String := b.pathNow last.world
    let picture := b.pictureAt last.inWorld.seen
    let box := last.place.look.box
    (steadily valid).rel drawn
        (afterShowings playAt b (earlier.map Occasion.inRun) >>= (playAt · last.inRun)) ∧
      (b.lastPath (earlier.map Occasion.inWorld) ≠ some path →
        (∀ p, picture = some p → ∀ frame ∈ p.frames, 1 ≤ frame.delay) →
        drawn.1.state.path = some path ∧ drawn.1.state.frame = 0 ∧
          drawn.1.state.loopReached = false ∧ drawn.1.state.lastChange = last.now ∧
          drawn.2 = picture.toList.map (.picture box.x1 box.y1 · 0 box) ∧
          ∀ p, picture = some p → ∀ (o : Occasion valid Scene) (now : Nat),
            b.pathNow o.world = path →
            (steadily valid).rel
              (last.place.loop.goesOn p.frameCount 0 && decide (last.now + p.delay 0 ≤ now) :
                Id Bool) (drawn.1.needsUpdate o.surroundings now)) ∧
      (b.lastPath (earlier.map Occasion.inWorld) = some path →
        drawn.1.state = match picture with
          | none => before.state
          | some p => before.state.played last.place.loop p last.now) := by
  intro before drawn path picture box
  have hpath : before.pathNow last.inWorld.surroundings = path := pathNow_after b _ _
  have hpicture : before.pictureAt last.inWorld.seen = picture := pictureAt_after b _ _
  have hknown : before.state.path = b.lastPath (earlier.map Occasion.inWorld) := path_after b _
  rw [← hknown]
  refine ⟨Occasion.last_related plays_related b earlier last, ?_, ?_⟩
  · intro hnew hdelays
    have hdrawn := playAt_of_new hpath hsome hnew (hpicture ▸ hdelays)
    rw [hpicture] at hdrawn
    have hstate : drawn.1.state = .begun path picture last.now :=
      congrArg (fun d : PictureBox × List DrawCall => d.1.state) hdrawn
    have hloop : drawn.1.loop = last.place.loop :=
      congrArg (fun d : PictureBox × List DrawCall => d.1.loop) hdrawn
    have hcalls : drawn.2 = picture.toList.map (.picture box.x1 box.y1 · 0 box) :=
      congrArg Prod.snd hdrawn
    rw [hstate]
    refine ⟨rfl, rfl, rfl, rfl, hcalls, ?_⟩
    intro p hp o now hsame
    have hshown : drawn.1.state.path = some (drawn.1.pathNow o.world) := by
      have hpathNow := pathNow_after b ((last :: earlier).map Occasion.inWorld) o.world
      rw [hstate, show drawn.1.pathNow o.world = path from hpathNow.trans hsame]
      rfl
    have hanswers := o.answers.pictureNeedsUpdate drawn.1 now
    rwa [needsUpdate_of_shown hshown, hstate, hloop, hp,
      PlayState.begun_isDue (hdelays p hp)] at hanswers
  · intro hshown
    have hdrawn := playAt_of_shown hpath hsome hshown
    rwa [hpicture] at hdrawn

/-- A box that shows what a host names. -/
def poster : PictureBox where
  path := ⟨[.token { name := "file", id := 0 }]⟩

/-- The poster is drawn while the host names some path. -/
def naming (path : String) (now : Nat) : Occasion (fun _ (_ : Unit) => True) Scene :=
  .fixed { Widget.gallery with token := fun _ => .text path }
    ⟨⟨⟨0, 0, 15, 15⟩, .black, .white⟩, .always⟩ now

theorem picture_naming (path : String) (now : Nat) : poster.pictureAt (naming path now).inWorld.seen =
    if path = "p" then some ⟨1, 1, [⟨#[], 100⟩, ⟨#[], 50⟩]⟩ else none := by
  change (if "" ++ path = "p" then _ else none) = _
  rw [String.empty_append]

/-- Nothing is there at the path before, and yet the picture starts at its first frame. -/
theorem restarts_at_other_path_poster :
    let earlier := [naming "q" 130, naming "p" 100, naming "p" 0]
    let last := naming "p" 150
    let drawn := (afterShowings playAt poster (earlier.map Occasion.inWorld)).playAt last.inWorld
    String.isEmpty (poster.pathNow last.world) = false ∧
      poster.lastPath (earlier.map Occasion.inWorld) = some "q" ∧
      drawn.1.state.frame = 0 ∧ drawn.1.state.loopReached = false ∧
      drawn.1.state.lastChange = 150 ∧
      (steadily fun _ (_ : Unit) => True).rel (false : Id Bool)
        (drawn.1.needsUpdate (naming "p" 249).surroundings 249) := by
  intro earlier last drawn
  have hsome : String.isEmpty (poster.pathNow last.world) = false := by decide +kernel
  have hother : poster.lastPath (earlier.map Occasion.inWorld) = some "q" := by decide +kernel
  have hpicture := picture_naming "p" 150
  rw [if_pos rfl] at hpicture
  obtain ⟨-, hrestarts, -⟩ := restarts_at_other_path poster earlier last hsome
  obtain ⟨-, hframe, hend, hsince, -, hidle⟩ := hrestarts (by rw [hother]; decide +kernel) (by
    intro p hp
    obtain rfl := Option.some.inj (hpicture.symm.trans hp)
    simp)
  exact ⟨hsome, hother, hframe, hend, hsince, hidle _ hpicture (naming "p" 249) 249 rfl⟩

/-- With no path in between, a picture goes on at its second frame. -/
theorem goes_on_after_empty_path :
    let drawn := (afterShowings playAt poster [(naming "" 120).inWorld, (naming "p" 100).inWorld,
      (naming "p" 0).inWorld]).playAt (naming "p" 130).inWorld
    let path : Occasion _ Scene → String := fun o => poster.pathNow o.world
    path (naming "" 120) ≠ path (naming "p" 130) ∧ (path (naming "p" 130)).isEmpty = false ∧
      poster.pictureAt (naming "p" 130).inWorld.seen =
        some ⟨1, 1, [⟨#[], 100⟩, ⟨#[], 50⟩]⟩ ∧
      drawn.1.state.frame = 1 ∧ drawn.1.state.lastChange = 100 := by
  decide +kernel

end PictureBox

end PanelSkin
