import PanelSkin.Proofs.Widget.Moment
import PanelSkin.Proofs.Widget.Settling
import PanelSkin.Proofs.Widget.Showing

/-!
Pictures that play, drawn again and again. A picture advances when its frame has stood for its
time: to the next frame or, after the last one, to the first frame or to its end. Which frame shows
depends on the number of advances alone. A picture that has come to its end stays as it is.
-/

namespace PanelSkin

theorem Picture.delay_pos {p : Picture} (hdelay : ∀ frame ∈ p.frames, 1 ≤ frame.delay)
    {frame : Nat} (hframe : frame < p.frameCount) : 1 ≤ p.delay frame := by
  have hthere : p.frames[frame]? = some p.frames[frame] := List.getElem?_eq_getElem hframe
  rw [Picture.delay, hthere]
  exact hdelay _ (List.getElem_mem hframe)

namespace LoopMode

/-- The frame that shows after some advances of a picture with some frames. -/
def frameAfter (loop : LoopMode) (count advances : Nat) : Nat :=
  match loop with
  | .never => 0
  | .once => min advances (count - 1)
  | .always => advances % count

/-- Whether another advance follows after some. A picture that plays once advances from its last
frame too, to its end. -/
def goesOn (loop : LoopMode) (count advances : Nat) : Bool :=
  1 < count && match loop with
    | .never => false
    | .once => advances < count
    | .always => true

theorem frameAfter_lt {count : Nat} (hcount : 1 ≤ count) (loop : LoopMode) (advances : Nat) :
    loop.frameAfter count advances < count := by
  cases loop with
  | never => exact hcount
  | once =>
      change min advances (count - 1) < count
      omega
  | always => exact Nat.mod_lt _ hcount

end LoopMode

namespace PlayState

/-- The state of a picture that has advanced at some times since a start; the latest comes first. -/
structure Advanced (path : String) (loop : LoopMode) (count start : Nat) (times : List Nat)
    (state : PlayState) : Prop where
  path : state.path = some path
  frame : state.frame = loop.frameAfter count times.length
  lastChange : state.lastChange = times.head?.getD start
  loopReached : state.loopReached = decide (loop = .once ∧ 1 < count ∧ count ≤ times.length)

/-- A picture that has just been set in its place has not advanced. -/
theorem advanced_fresh (path : String) (loop : LoopMode) (count start : Nat) :
    Advanced path loop count start [] { path := some path, lastChange := start } where
  path := rfl
  frame := by
    cases loop with
    | never => rfl
    | once => exact (Nat.zero_min _).symm
    | always => exact (Nat.zero_mod _).symm
  lastChange := rfl
  loopReached := by
    simp
    omega

variable {path : String} {loop : LoopMode} {count start : Nat} {times : List Nat}
  {state : PlayState}

theorem Advanced.ofFrames (h : state.Advanced path loop count start times) (hcount : 1 ≤ count) :
    state.ofFrames count = { state with frameCount := count } := by
  have hframe : state.frame < count := h.frame ▸ loop.frameAfter_lt hcount times.length
  rw [PlayState.ofFrames, if_pos hframe]

theorem Advanced.isPlaying (h : state.Advanced path loop count start times) :
    ({ state with frameCount := count } : PlayState).isPlaying loop =
      loop.goesOn count times.length := by
  unfold PlayState.isPlaying LoopMode.goesOn
  dsimp only
  rw [h.loopReached]
  cases loop with
  | never => rfl
  | always => rfl
  | once =>
      by_cases hsome : 1 < count
      · have hmore : (!decide (count ≤ times.length)) = decide (times.length < count) := by
          rw [← decide_not]
          exact decide_eq_decide.mpr Nat.not_le
        simp [hsome, hmore]
      · simp [hsome]

/-- A picture that plays once advances to the next frame or, from its last one, to its end. -/
theorem Advanced.next_once (h : state.Advanced path .once count start times) (hsome : 1 < count)
    (hmore : times.length < count) (now : Nat) :
    let following := ({ state with frameCount := count } : PlayState).next .once now
    following.Advanced path .once count start (now :: times) ∧
      (following.frame ≠ state.frame ∨ following.loopReached ≠ state.loopReached) := by
  have hframe : state.frame = times.length := by
    rw [h.frame]
    change min times.length (count - 1) = times.length
    omega
  have hbefore : state.loopReached = false := by
    rw [h.loopReached]
    exact decide_eq_false fun hover => absurd hover.2.2 (Nat.not_le.mpr hmore)
  unfold PlayState.next
  dsimp only
  by_cases hlast : state.frame + 1 < count
  · rw [if_pos hlast]
    refine ⟨⟨h.path, ?_, rfl, ?_⟩, .inl (Nat.succ_ne_self _)⟩
    · change state.frame + 1 = min (times.length + 1) (count - 1)
      omega
    · rw [hbefore]
      simp
      omega
  · rw [if_neg hlast, if_pos rfl]
    refine ⟨⟨h.path, ?_, rfl, ?_⟩, .inr ?_⟩
    · change state.frame = min (times.length + 1) (count - 1)
      omega
    · simp
      omega
    · simp [hbefore]

/-- A picture that plays for ever advances to the next frame or, from its last one, to the first. -/
theorem Advanced.next_always (h : state.Advanced path .always count start times)
    (hsome : 1 < count) (now : Nat) :
    let following := ({ state with frameCount := count } : PlayState).next .always now
    following.Advanced path .always count start (now :: times) ∧ following.frame ≠ state.frame := by
  have hframe : state.frame = times.length % count := h.frame
  have hnever : state.loopReached = false := by simpa using h.loopReached
  have hnext : (times.length + 1) % count =
      if count ≤ times.length % count + 1 then times.length % count + 1 - count
      else times.length % count + 1 := by
    rw [Nat.add_mod_eq_ite, Nat.mod_eq_of_lt hsome]
  have hlt := Nat.mod_lt times.length (Nat.lt_of_succ_lt hsome)
  unfold PlayState.next
  dsimp only
  by_cases hlast : state.frame + 1 < count
  · rw [if_pos hlast]
    refine ⟨⟨h.path, ?_, rfl, by simp [hnever]⟩, Nat.succ_ne_self _⟩
    change state.frame + 1 = (times.length + 1) % count
    rw [hnext, if_neg (by omega), hframe]
  · rw [if_neg hlast, if_neg (by decide)]
    refine ⟨⟨h.path, ?_, rfl, by simp [hnever]⟩, ?_⟩
    · change 0 = (times.length + 1) % count
      rw [hnext, if_pos (by omega)]
      omega
    · change 0 ≠ state.frame
      omega

/-- Every advance can be seen: another frame shows, or the end is reached. -/
theorem Advanced.next (h : state.Advanced path loop count start times)
    (hgoesOn : loop.goesOn count times.length = true) (now : Nat) :
    let following := ({ state with frameCount := count } : PlayState).next loop now
    following.Advanced path loop count start (now :: times) ∧
      (following.frame ≠ state.frame ∨ following.loopReached ≠ state.loopReached) := by
  cases loop with
  | never => simp [LoopMode.goesOn] at hgoesOn
  | once =>
      obtain ⟨hsome, hmore⟩ : 1 < count ∧ times.length < count := by
        simpa [LoopMode.goesOn] using hgoesOn
      exact h.next_once hsome hmore now
  | always =>
      have hsome : 1 < count := by simpa [LoopMode.goesOn] using hgoesOn
      have hnext := h.next_always hsome now
      exact ⟨hnext.1, .inl hnext.2⟩

/-- Whether a picture whose frames stand for some delays advances at some time. -/
def IsTime (loop : LoopMode) (count start : Nat) (times : List Nat) (delay : Nat → Nat)
    (now : Nat) : Prop :=
  loop.goesOn count times.length = true ∧
    times.head?.getD start + delay (loop.frameAfter count times.length) ≤ now

instance (loop : LoopMode) (count start : Nat) (times : List Nat) (delay : Nat → Nat)
    (now : Nat) : Decidable (IsTime loop count start times delay now) :=
  inferInstanceAs (Decidable (_ ∧ _))

/-- Drawing takes the advance for which it is time. -/
theorem Advanced.played (h : state.Advanced path loop count start times) (hcount : 1 ≤ count)
    {p : Picture} (hframes : p.frameCount = count) (hdelay : ∀ frame ∈ p.frames, 1 ≤ frame.delay)
    (now : Nat) :
    let played := state.played loop p now
    played.Advanced path loop count start
        (if IsTime loop count start times p.delay now then now :: times else times) ∧
      played.frameCount = count ∧
      (IsTime loop count start times p.delay now ↔
        played.frame ≠ state.frame ∨ played.loopReached ≠ state.loopReached) := by
  have hdue : (({ state with frameCount := count } : PlayState).isPlaying loop &&
      decide (p.delay state.frame ≤ now - state.lastChange)) = true ↔
        IsTime loop count start times p.delay now := by
    have hstands : 1 ≤ p.delay (loop.frameAfter count times.length) :=
      Picture.delay_pos hdelay (Nat.lt_of_lt_of_eq (loop.frameAfter_lt hcount _) hframes.symm)
    rw [h.isPlaying, h.frame, h.lastChange, Bool.and_eq_true, decide_eq_true_eq]
    -- The time that has passed is zero when the clock is behind the last change, so a frame that
    -- stands for no time would be due then.
    exact and_congr_right fun _ => by omega
  unfold PlayState.played
  dsimp only
  rw [hframes, h.ofFrames hcount]
  dsimp only
  by_cases htime : IsTime loop count start times p.delay now
  · obtain ⟨hadvanced, hseen⟩ := h.next htime.1 now
    have hcounts := (({ state with frameCount := count } : PlayState).next_spec loop now (.inl
      (h.frame ▸ loop.frameAfter_lt hcount times.length))).2.1
    rw [if_pos (hdue.mpr htime), if_pos htime]
    exact ⟨⟨hadvanced.path, hadvanced.frame, hadvanced.lastChange, hadvanced.loopReached⟩, hcounts,
      fun _ => hseen, fun _ => htime⟩
  · rw [if_neg (mt hdue.mp htime), if_neg htime]
    exact ⟨⟨h.path, h.frame, h.lastChange, h.loopReached⟩, rfl,
      fun hnow => absurd hnow htime, fun hseen => absurd hseen (by simp)⟩

/-- The state of a picture that plays once and is at its end, or that has a single frame. -/
structure Ended (path : String) (count : Nat) (state : PlayState) : Prop where
  path : state.path = some path
  frame : state.frame = count - 1
  frameCount : state.frameCount = count
  rests : state.isPlaying .once = false

theorem Advanced.ended (h : state.Advanced path .once count start times)
    (hframes : state.frameCount = count) (hend : count = 1 ∨ count ≤ times.length) :
    state.Ended path count where
  path := h.path
  frame := by
    rw [h.frame]
    change min times.length (count - 1) = count - 1
    omega
  frameCount := hframes
  rests := by
    have hover : LoopMode.once.goesOn count times.length = false := by
      simp [LoopMode.goesOn]
      omega
    rw [← hover, ← h.isPlaying, ← hframes]

theorem Ended.played (h : state.Ended path count) (hcount : 1 ≤ count) {p : Picture}
    (hframes : p.frameCount = count) (now : Nat) : (state.played .once p now).Ended path count := by
  have hsame : state.ofFrames count = state := by
    rw [PlayState.ofFrames, if_pos (by rw [h.frame]; omega), ← h.frameCount]
  unfold PlayState.played
  dsimp only
  rw [hframes, hsame, h.rests]
  exact ⟨h.path, h.frame, h.frameCount, h.rests⟩

end PlayState

namespace PictureBox

/-- The picture that is there for a box at a showing. -/
def pictureAt (b : PictureBox) (s : Showing Id Look) : Option Picture :=
  s.surroundings.picture (b.pathNow s.surroundings) (b.scale.request s.place.box).1
    (b.scale.request s.place.box).2

/-- The state in which a picture is found at a showing. -/
def found (b : PictureBox) (s : Showing Id Look) : PlayState :=
  b.state.showing (b.pathNow s.surroundings) s.now

/-- Whether a picture advances at a showing: another frame shows, or its end is reached. -/
def advances (b : PictureBox) (s : Showing Id Look) : Bool :=
  let drawn := (b.drawAt s).1.state
  drawn.frame ≠ (b.found s).frame || drawn.loopReached ≠ (b.found s).loopReached

/-- The times at which a picture advanced, of some showings; the latest comes first. -/
def advanceTimes (b : PictureBox) : List (Showing Id Look) → List Nat
  | [] => []
  | last :: earlier =>
    let before : PictureBox := afterShowings drawAt b earlier
    if before.advances last then last.now :: b.advanceTimes earlier else b.advanceTimes earlier

/-- A showing at which a picture box has some path, which leads to a picture with some frames. -/
structure Plays (b : PictureBox) (path : String) (count : Nat) (s : Showing Id Look) : Prop where
  path : b.pathNow s.surroundings = path
  there : ∃ p, b.pictureAt s = some p ∧ p.frameCount = count ∧ ∀ frame ∈ p.frames, 1 ≤ frame.delay

/-- How long a frame stands at a showing. -/
def delayAt (b : PictureBox) (s : Showing Id Look) (frame : Nat) : Nat :=
  ((b.pictureAt s).map (·.delay frame)).getD 0

section Showing

variable {b : PictureBox} {s : Showing Id Look}

theorem drawAt_of_there {path : String} (hpath : b.pathNow s.surroundings = path)
    (hsome : path.isEmpty = false) {p : Picture} (hp : b.pictureAt s = some p) :
    b.drawAt s =
      let state := (b.found s).played b.loop p s.now
      ({ b with state }, [.picture s.place.box.x1 s.place.box.y1 p state.frame s.place.box]) := by
  subst hpath
  exact draw_of_there _ _ hsome hp

theorem drawAt_keeps (b : PictureBox) (s : Showing Id Look) :
    (b.drawAt s).1 = { b with state := (b.drawAt s).1.state } := by
  unfold drawAt
  cases hempty : String.isEmpty (b.pathNow s.surroundings) with
  | true => rw [draw_of_empty _ _ hempty]
  | false =>
      cases hpicture : s.surroundings.picture (b.pathNow s.surroundings)
        (b.scale.request s.place.box).1 (b.scale.request s.place.box).2 with
      | none => rw [draw_of_missing _ _ hempty hpicture]
      | some p => rw [draw_of_there _ _ hempty hpicture]

theorem found_of_new {path : String} (hnew : b.state.path ≠ some path)
    (hpath : b.pathNow s.surroundings = path) :
    b.found s = { path := some path, lastChange := s.now } := by
  rw [found, hpath]
  exact if_neg hnew

theorem Plays.of_state {path : String} {count : Nat} (h : b.Plays path count s)
    (state : PlayState) : ({ b with state } : PictureBox).Plays path count s where
  path := h.path
  there := h.there

/-- A drawing takes the advance for which it is time, and no other. -/
theorem Plays.drawAt_advanced {path : String} {count : Nat} (h : b.Plays path count s)
    (hsome : path.isEmpty = false) (hcount : 1 ≤ count) {start : Nat} {times : List Nat}
    (hfound : (b.found s).Advanced path b.loop count start times) :
    let drawn := (b.drawAt s).1.state
    drawn.Advanced path b.loop count start
        (if PlayState.IsTime b.loop count start times (b.delayAt s) s.now then s.now :: times
          else times) ∧
      drawn.frameCount = count ∧
      (b.advances s = true ↔ PlayState.IsTime b.loop count start times (b.delayAt s) s.now) := by
  obtain ⟨p, hp, hframes, hdelay⟩ := h.there
  have hdelays : b.delayAt s = p.delay := by
    funext frame
    rw [delayAt, hp]
    rfl
  obtain ⟨hadvanced, hcounts, hseen⟩ := hfound.played hcount hframes hdelay s.now
  unfold advances
  rw [drawAt_of_there h.path hsome hp, hdelays]
  refine ⟨hadvanced, hcounts, ?_⟩
  rw [hseen]
  simp

end Showing

section Run

variable {b : PictureBox} {path : String} {count : Nat}

theorem after_keeps (b : PictureBox) (history : List (Showing Id Look)) :
    afterShowings drawAt b history =
      ({ b with state := (afterShowings drawAt b history).state } : PictureBox) := by
  have hstep : ∀ s ∈ history, ∀ before : PictureBox, before = { b with state := before.state } →
      (before.drawAt s).1 = { b with state := (before.drawAt s).1.state } := by
    intro s _ before hbefore
    rw [drawAt_keeps, hbefore]
  exact afterShowings_invariant
    (P := fun after : PictureBox => after = { b with state := after.state }) rfl hstep

/-- The showing that comes last adds the advance for which it is time. -/
theorem Plays.advanced_last {last : Showing Id Look} (h : b.Plays path count last)
    (hsome : path.isEmpty = false) (hcount : 1 ≤ count) {earlier : List (Showing Id Look)}
    {start : Nat}
    (hfound : ((afterShowings drawAt b earlier : PictureBox).found last).Advanced path b.loop count
      start (b.advanceTimes earlier)) :
    let drawn := ((afterShowings drawAt b earlier : PictureBox).drawAt last).1.state
    let made := b.advanceTimes earlier
    let times := b.advanceTimes (last :: earlier)
    drawn.Advanced path b.loop count start times ∧ drawn.frameCount = count ∧
      times = if PlayState.IsTime b.loop count start made (b.delayAt last) last.now
        then last.now :: made else made := by
  intro drawn made times
  have htimes : times = if (afterShowings drawAt b earlier : PictureBox).advances last = true
      then last.now :: made else made := rfl
  have hbefore := h.of_state (afterShowings drawAt b earlier : PictureBox).state
  unfold drawn
  rw [after_keeps] at hfound htimes ⊢
  obtain ⟨hadvanced, hcounts, hseen⟩ := hbefore.drawAt_advanced hsome hcount hfound
  rw [if_congr hseen rfl rfl] at htimes
  rw [htimes]
  exact ⟨hadvanced, hcounts, rfl⟩

/-- The picture that is there is drawn, at the frame at which it is then. -/
theorem Plays.calls_after {s : Showing Id Look} (h : b.Plays path count s)
    (hsome : path.isEmpty = false) (history : List (Showing Id Look)) :
    let drawn := (afterShowings drawAt b history : PictureBox).drawAt s
    ∃ p, b.pictureAt s = some p ∧
      drawn.2 = [.picture s.place.box.x1 s.place.box.y1 p drawn.1.state.frame s.place.box] := by
  obtain ⟨p, hp, -, -⟩ := h.there
  refine ⟨p, hp, ?_⟩
  have hbefore := h.of_state (afterShowings drawAt b history : PictureBox).state
  rw [after_keeps, drawAt_of_there hbefore.path hsome hp]

theorem found_after_cons (earlier : List (Showing Id Look)) {last s : Showing Id Look}
    (hsame : ((afterShowings drawAt b earlier : PictureBox).drawAt last).1.state.path =
      some (b.pathNow s.surroundings)) :
    (afterShowings drawAt b (last :: earlier) : PictureBox).found s =
      ((afterShowings drawAt b earlier : PictureBox).drawAt last).1.state := by
  rw [after_keeps]
  exact PlayState.showing_of_shown hsame

/-- What has become of a picture that plays: it has made its advances. -/
theorem advanced_after (hsome : path.isEmpty = false) (hnew : b.state.path ≠ some path)
    (hcount : 1 ≤ count) (s : Showing Id Look) (history : List (Showing Id Look))
    (hplays : ∀ o ∈ s :: history, b.Plays path count o) :
    let drawn := ((afterShowings drawAt b history : PictureBox).drawAt s).1.state
    let start := ((s :: history).getLast (List.cons_ne_nil _ _)).now
    let made := b.advanceTimes history
    let times := b.advanceTimes (s :: history)
    drawn.Advanced path b.loop count start times ∧ drawn.frameCount = count ∧
      times = if PlayState.IsTime b.loop count start made (b.delayAt s) s.now
        then s.now :: made else made := by
  -- The first showing finds another path, and each later one the state that was left before it.
  induction history generalizing s with
  | nil =>
      have h := hplays s List.mem_cons_self
      apply h.advanced_last hsome hcount
      change (b.found s).Advanced _ _ _ _ _
      rw [found_of_new hnew h.path]
      exact PlayState.advanced_fresh path b.loop count s.now
  | cons last earlier ih =>
      obtain ⟨hs, hearlier⟩ := List.forall_mem_cons.mp hplays
      obtain ⟨hlast, -⟩ := ih last hearlier
      apply hs.advanced_last hsome hcount
      rw [found_after_cons earlier (hlast.path.trans (congrArg some hs.path.symm))]
      exact hlast

theorem Plays.drawAt_ended {s : Showing Id Look} (h : b.Plays path count s)
    (hsome : path.isEmpty = false) (hcount : 1 ≤ count) (honce : b.loop = .once)
    (hended : b.state.Ended path count) : (b.drawAt s).1.state.Ended path count := by
  obtain ⟨p, hp, hframes, -⟩ := h.there
  have hfound : b.found s = b.state :=
    PlayState.showing_of_shown (hended.path.trans (congrArg some h.path.symm))
  rw [drawAt_of_there h.path hsome hp, hfound, honce]
  exact hended.played hcount hframes s.now

/-- A picture at its end stays there. -/
theorem ended_after (hsome : path.isEmpty = false) (hcount : 1 ≤ count) (honce : b.loop = .once)
    (hended : b.state.Ended path count) {later : List (Showing Id Look)}
    (hplays : ∀ s ∈ later, b.Plays path count s) :
    (afterShowings drawAt b later : PictureBox).state.Ended path count := by
  have hstep : ∀ s ∈ later, ∀ before : PictureBox,
      (before = { b with state := before.state } ∧ before.state.Ended path count) →
      (before.drawAt s).1 = { b with state := (before.drawAt s).1.state } ∧
        (before.drawAt s).1.state.Ended path count := by
    rintro s hs before ⟨hkeeps, hbefore⟩
    have hplaysBefore : before.Plays path count s := hkeeps ▸ (hplays s hs).of_state _
    have honceBefore : before.loop = .once := by rw [hkeeps, honce]
    refine ⟨?_, hplaysBefore.drawAt_ended hsome hcount honceBefore hbefore⟩
    rw [drawAt_keeps, hkeeps]
  exact (afterShowings_invariant
    (P := fun after : PictureBox =>
      after = { b with state := after.state } ∧ after.state.Ended path count)
    ⟨rfl, hended⟩ hstep).2

/-- With the same path a picture at its end does not have to be drawn again. -/
theorem needsUpdate_of_ended (honce : b.loop = .once) (hended : b.state.Ended path count)
    {world : Surroundings Id} (hpath : b.pathNow world = path) (now : Nat) :
    b.needsUpdate world now = false := by
  have hshown : b.state.path = some (b.pathNow world) :=
    hended.path.trans (congrArg some hpath.symm)
  rw [needsUpdate_of_shown hshown, PlayState.isDue, honce, hended.rests, Bool.false_and]

end Run

variable {σ : Type} {valid : Cells → σ → Prop}

/-- A picture that plays advances when its frame has stood for its time since the advance before or,
before the first one, since the picture appeared, and by one frame each time. The frame that shows
depends on the number of advances. A picture that plays once and has come to its end keeps its last
frame, and does not have to be drawn again as long as its path stays the same. -/
theorem frames_of_advances {b : PictureBox} {path : String} (hsome : path.isEmpty = false)
    (hnew : b.state.path ≠ some path) {count : Nat} (hcount : 1 ≤ count)
    (earlier : List (Occasion valid Look)) (last : Occasion valid Look)
    (hplays : ∀ o ∈ last :: earlier, b.Plays path count o.inWorld) :
    let before : PictureBox := afterShowings drawAt b (earlier.map Occasion.inWorld)
    let drawn := before.drawAt last.inWorld
    let start := ((last :: earlier).getLast (List.cons_ne_nil _ _)).now
    let made := b.advanceTimes (earlier.map Occasion.inWorld)
    let times := b.advanceTimes ((last :: earlier).map Occasion.inWorld)
    (steadily valid).rel drawn
        (afterShowings drawAt b (earlier.map Occasion.inRun) >>= (drawAt · last.inRun)) ∧
      (∃ p, b.pictureAt last.inWorld = some p ∧ drawn.2 =
        [.picture last.place.box.x1 last.place.box.y1 p drawn.1.state.frame last.place.box]) ∧
      drawn.1.state.frame = b.loop.frameAfter count times.length ∧
      drawn.1.state.frame < count ∧
      times = (if b.loop.goesOn count made.length = true ∧ made.head?.getD start +
          b.delayAt last.inWorld (b.loop.frameAfter count made.length) ≤ last.now
        then last.now :: made else made) ∧
      (b.loop = .once → count = 1 ∨ count ≤ times.length →
        ∀ later : List (Occasion valid Look), (∀ o ∈ later, b.Plays path count o.inWorld) →
          let after : PictureBox := afterShowings drawAt drawn.1 (later.map Occasion.inWorld)
          (steadily valid).rel (after : Id PictureBox)
              (afterShowings drawAt drawn.1 (later.map Occasion.inRun)) ∧
            after.state.frame = count - 1 ∧
            ∀ (o : Occasion valid Look) (now : Nat), b.pathNow o.world = path →
              (steadily valid).rel (false : Id Bool) (after.needsUpdate o.surroundings now)) := by
  intro before drawn start made times
  have hshown : ∀ s ∈ (last :: earlier).map Occasion.inWorld, b.Plays path count s :=
    List.forall_mem_map.mpr hplays
  have hstart : (((last :: earlier).map Occasion.inWorld).getLast (List.cons_ne_nil _ _)).now =
      start := congrArg Showing.now (List.getLast_map _)
  obtain ⟨hadvanced, hframes, htimes⟩ := advanced_after hsome hnew hcount last.inWorld
    (earlier.map Occasion.inWorld) hshown
  rw [show ((last.inWorld :: earlier.map Occasion.inWorld).getLast _).now = start from hstart]
    at hadvanced htimes
  refine ⟨Occasion.last_related (fun a o => o.picture_related a) b earlier last,
    (hplays last List.mem_cons_self).calls_after hsome _, hadvanced.frame,
    hadvanced.frame ▸ b.loop.frameAfter_lt hcount _, htimes, ?_⟩
  intro honce hend later hlater after
  have hdrawn : drawn.1 = { b with state := drawn.1.state } :=
    after_keeps b ((last :: earlier).map Occasion.inWorld)
  have hafter : after = { drawn.1 with state := after.state } := after_keeps drawn.1 _
  have hended : after.state.Ended path count := by
    have hlaterPlays : ∀ s ∈ later.map Occasion.inWorld, drawn.1.Plays path count s := by
      rw [hdrawn]
      exact fun s hs => (List.forall_mem_map.mpr hlater s hs).of_state _
    rw [honce] at hadvanced
    exact ended_after hsome hcount (by rw [hdrawn, honce]) (hadvanced.ended hframes hend)
      hlaterPlays
  refine ⟨Occasion.after_related (fun a o => o.picture_related a) drawn.1 later, hended.frame, ?_⟩
  intro o now hpath
  have honceAfter : after.loop = .once := by rw [hafter, hdrawn, honce]
  have hpathAfter : after.pathNow o.world = path := by
    rw [hafter, hdrawn]
    exact hpath
  have hidle := needsUpdate_of_ended honceAfter hended hpathAfter now
  have hanswers := o.answers.pictureNeedsUpdate after now
  rwa [hidle] at hanswers

/-- A picture of two frames, of 100 and 50 milliseconds, that plays once. -/
def clip : PictureBox where
  path := ⟨[.literal "p"]⟩
  loop := .once

/-- The clip is drawn at some time. -/
def viewing (now : Nat) : Occasion (fun _ (_ : Unit) => True) Look :=
  .fixed Widget.gallery ⟨⟨0, 0, 15, 15⟩, .black, .white⟩ now

theorem clip_plays (now : Nat) : clip.Plays "p" 2 (viewing now).inWorld where
  path := rfl
  there := by
    refine ⟨⟨1, 1, [⟨#[], 100⟩, ⟨#[], 50⟩]⟩, ?_, rfl, by simp⟩
    change (if "p" = "p" then _ else none) = _
    exact if_pos rfl

/-- The second frame shows at 100, and the end is reached at 150. -/
theorem frames_of_advances_clip :
    let earlier := [viewing 130, viewing 100, viewing 60, viewing 0]
    let last := viewing 150
    let drawn := (afterShowings drawAt clip (earlier.map Occasion.inWorld)).drawAt last.inWorld
    let after := (afterShowings drawAt drawn.1 ([viewing 900, viewing 400].map Occasion.inWorld) :
      PictureBox)
    clip.state.path ≠ some "p" ∧ (∀ o ∈ last :: earlier, clip.Plays "p" 2 o.inWorld) ∧
      clip.advanceTimes ((last :: earlier).map Occasion.inWorld) = [150, 100] ∧
      drawn.1.state.frame = 1 ∧ after.state.frame = 1 ∧
      (steadily fun _ (_ : Unit) => True).rel (false : Id Bool)
        (after.needsUpdate (viewing 60000).surroundings 60000) := by
  intro earlier last drawn after
  have hnew : clip.state.path ≠ some "p" := by simp [clip]
  have hplays : ∀ o ∈ last :: earlier, clip.Plays "p" 2 o.inWorld := by
    simp only [earlier, List.forall_mem_cons]
    exact ⟨clip_plays _, clip_plays _, clip_plays _, clip_plays _, clip_plays _, by simp⟩
  have htimes : clip.advanceTimes ((last :: earlier).map Occasion.inWorld) = [150, 100] := by
    decide +kernel
  obtain ⟨-, -, hframe, -, -, hend⟩ :=
    frames_of_advances rfl hnew (by decide) earlier last hplays
  rw [htimes] at hframe hend
  obtain ⟨-, hstays, hidle⟩ := hend rfl (.inr (by decide)) [viewing 900, viewing 400] (by
    simp only [List.forall_mem_cons]
    exact ⟨clip_plays _, clip_plays _, by simp⟩)
  exact ⟨hnew, hplays, htimes, hframe, hstays, hidle (viewing 60000) 60000 rfl⟩

end PictureBox

end PanelSkin
