import Mathlib.Data.Int.ModEq
import PanelSkin.Proofs.Widget.Settling
import PanelSkin.Proofs.Widget.Showing

/-!
Texts that scroll for ever, drawn again and again. A text starts anew when it says something else.
From then on it moves a step whenever one is due, up to the first time that it does not scroll:
a text that once had no font, or fitted its box, stays where it is. How far it has come depends on
the number of its steps alone.
-/

namespace PanelSkin

/-- A step from an offset on, in rounds of some length: at the end of a round it goes on with the
next one. -/
def wrapOnce (offset step cycle : Int) : Int :=
  if offset + step < cycle then offset + step else offset + step - cycle

theorem wrapOnce_modEq (offset step cycle : Int) :
    wrapOnce offset step cycle ≡ offset + step [ZMOD cycle] := by
  unfold wrapOnce
  split
  · exact Int.ModEq.refl _
  · exact Int.sub_modulus_modEq_iff.mpr (Int.ModEq.refl _)

/-- Where some steps of one length lead to from the start. A step that is longer than the round
does not come back into it. -/
def offsetAfter (taken : Nat) (step cycle : Int) : Int :=
  if step ≤ cycle then taken * step % cycle else taken * (step - cycle)

theorem offsetAfter_zero (step cycle : Int) : offsetAfter 0 step cycle = 0 := by
  unfold offsetAfter
  split
  · simp
  · simp

theorem offsetAfter_mem {step cycle : Int} (hstep : 1 ≤ step) (hcycle : step ≤ cycle)
    (taken : Nat) : 0 ≤ offsetAfter taken step cycle ∧ offsetAfter taken step cycle < cycle := by
  rw [offsetAfter, if_pos hcycle]
  exact ⟨Int.emod_nonneg _ (by omega), Int.emod_lt_of_pos _ (by omega)⟩

theorem wrapOnce_offsetAfter {step : Int} (hstep : 1 ≤ step) (cycle : Int) (taken : Nat) :
    wrapOnce (offsetAfter taken step cycle) step cycle = offsetAfter (taken + 1) step cycle := by
  by_cases hcycle : step ≤ cycle
  · have hbefore := offsetAfter_mem hstep hcycle taken
    have hafter : 0 ≤ wrapOnce (offsetAfter taken step cycle) step cycle ∧
        wrapOnce (offsetAfter taken step cycle) step cycle < cycle := by
      unfold wrapOnce
      split
      · omega
      · omega
    -- Both sides lie in the round, so they agree if they do modulo its length.
    rw [← Int.emod_eq_of_lt hafter.1 hafter.2, wrapOnce_modEq, offsetAfter, offsetAfter,
      if_pos hcycle, if_pos hcycle, Int.emod_add_emod]
    congr 1
    rw [Int.natCast_succ, Int.add_mul, Int.one_mul]
  · have hlong : 0 ≤ (taken : Int) * (step - cycle) :=
      Int.mul_nonneg (Int.natCast_nonneg taken) (by omega)
    rw [wrapOnce, offsetAfter, offsetAfter, if_neg hcycle, if_neg hcycle, if_neg (by omega)]
    rw [Int.natCast_succ, Int.add_mul, Int.one_mul]
    omega

theorem ScrollState.step_always (state : ScrollState) (speed cycle : Int) (now : Nat) :
    state.step .always speed cycle now =
      { state with offset := wrapOnce state.offset (max speed 1) cycle, lastChange := now } := by
  unfold step wrapOnce
  dsimp only
  split
  · rfl
  · rfl

namespace TextBox

/-- Whether a text scrolls at a showing: it has its font then, and is wider than its box. -/
def scrolls (t : TextBox) (s : Showing Id Look) : Bool :=
  match s.surroundings.font t.font with
  | none => false
  | some face => !t.multiline && t.mustScroll face (t.content s.surroundings) s.place.box

/-- The state in which a text is found at a showing. -/
def found (t : TextBox) (s : Showing Id Look) : ScrollState :=
  t.state.showing (t.content s.surroundings) s.now

/-- Whether a text moves a step on at a showing. -/
def steps (t : TextBox) (s : Showing Id Look) : Bool :=
  t.scrolls s && (t.found s).isDue t.pause s.now

/-- The times at which a text moved a step on, of some showings; the latest comes first. -/
def stepTimes (t : TextBox) : List (Showing Id Look) → List Nat
  | [] => []
  | last :: earlier =>
    let before : TextBox := afterShowings drawAt t earlier
    if before.steps last then last.now :: t.stepTimes earlier else t.stepTimes earlier

/-- The length of a round with a face, at a showing. -/
def round (t : TextBox) (face : Face) (s : Showing Id Look) : Int :=
  cycle face (t.content s.surroundings) s.surroundings.separator

section Showing

/-- What a drawing does to a text: either it does not scroll, and its round counts as over; or it
scrolls, and moves on if that is due. -/
theorem drawAt_cases (t : TextBox) (s : Showing Id Look) :
    (t.scrolls s = false ∧ ∃ scrolling, (t.drawAt s).1 =
      { t with state := { t.found s with scrolling, loopReached := true } }) ∨
    (t.scrolls s = true ∧ ∃ face, s.surroundings.font t.font = some face ∧ (t.drawAt s).1 =
      { t with state := t.scrolled (t.found s) (t.round face s) s.now }) := by
  unfold scrolls drawAt
  cases hfont : s.surroundings.font t.font with
  | none =>
      rw [draw_of_missing _ _ hfont]
      exact .inl ⟨rfl, false, rfl⟩
  | some face =>
      rw [draw_of_there _ _ hfont]
      dsimp only
      unfold compose
      cases hmultiline : t.multiline with
      | true => exact .inl ⟨rfl, _, rfl⟩
      | false =>
          cases hmust : t.mustScroll face (t.content s.surroundings) s.place.box with
          | true =>
              refine .inr ⟨rfl, face, rfl, ?_⟩
              simp only [setting, hmust, if_true]
              rfl
          | false =>
              refine .inl ⟨rfl, false, ?_⟩
              simp only [setting, hmust]
              rfl

variable {t : TextBox} {s : Showing Id Look}

theorem drawAt_keeps (t : TextBox) (s : Showing Id Look) :
    (t.drawAt s).1 = { t with state := (t.drawAt s).1.state } := by
  obtain ⟨-, scrolling, hdrawn⟩ | ⟨-, face, -, hdrawn⟩ := t.drawAt_cases s
  · rw [hdrawn]
  · rw [hdrawn]

theorem drawAt_of_idle (h : t.steps s = false) :
    (t.drawAt s).1.state.offset = (t.found s).offset ∧
      (t.drawAt s).1.state.lastChange = (t.found s).lastChange ∧
      (t.drawAt s).1.state.loopReached = ((t.found s).loopReached || !t.scrolls s) := by
  obtain ⟨hscrolls, scrolling, hdrawn⟩ | ⟨hscrolls, face, -, hdrawn⟩ := t.drawAt_cases s
  · rw [hdrawn, hscrolls]
    exact ⟨rfl, rfl, (Bool.or_true _).symm⟩
  · have hidle : (t.found s).isDue t.pause s.now = false := by
      simpa [steps, hscrolls] using h
    have hstays : t.scrolled (t.found s) (t.round face s) s.now =
        { t.found s with scrolling := true } := if_neg (ne_true_of_eq_false hidle)
    rw [hdrawn, hscrolls, hstays]
    exact ⟨rfl, rfl, (Bool.or_false _).symm⟩

theorem drawAt_of_step (hscroll : t.scroll = .always) (h : t.steps s = true) :
    ∃ face, s.surroundings.font t.font = some face ∧ (t.drawAt s).1.state =
      { t.found s with
        offset := wrapOnce (t.found s).offset (max t.speed 1) (t.round face s)
        lastChange := s.now
        scrolling := true } := by
  obtain ⟨hscrolls, hdue⟩ := Bool.and_eq_true_iff.mp h
  obtain ⟨hrests, -⟩ | ⟨-, face, hface, hdrawn⟩ := t.drawAt_cases s
  · simp [hscrolls] at hrests
  · refine ⟨face, hface, ?_⟩
    have hmoves : t.scrolled (t.found s) (t.round face s) s.now =
        ScrollState.step { t.found s with scrolling := true } t.scroll t.speed
          (t.round face s) s.now := if_pos hdue
    rw [hdrawn, hmoves, hscroll, ScrollState.step_always]

/-- The steps of a text are the drawings that change its offset, but for steps as long as the round,
which lead back to where they start. -/
theorem offset_changes_iff (hscroll : t.scroll = .always)
    (hround : ∀ face, s.surroundings.font t.font = some face → t.round face s ≠ max t.speed 1) :
    (t.drawAt s).1.state.offset ≠ (t.found s).offset ↔ t.steps s = true := by
  constructor
  · intro hchanges
    by_contra hidle
    exact hchanges (drawAt_of_idle (Bool.eq_false_iff.mpr hidle)).1
  · intro hsteps
    obtain ⟨face, hface, hstate⟩ := drawAt_of_step hscroll hsteps
    have hstep : 1 ≤ max t.speed 1 := Int.le_max_right _ _
    have hother := hround face hface
    rw [hstate]
    unfold wrapOnce
    dsimp only
    split
    · omega
    · omega

theorem drawAt_content (t : TextBox) (s : Showing Id Look) :
    (t.drawAt s).1.state.content = some (t.content s.surroundings) := by
  unfold drawAt
  cases hfont : s.surroundings.font t.font with
  | none =>
      rw [draw_of_missing _ _ hfont]
      exact t.state.showing_content _ _
  | some face =>
      rw [draw_of_there _ _ hfont]
      exact (t.compose_content _ _ _ _ _).trans (t.state.showing_content _ _)

/-- A text that still says the same is found as it was left. -/
theorem found_of_drawn {next : Showing Id Look}
    (h : t.content next.surroundings = t.content s.surroundings) :
    (t.drawAt s).1.found next = (t.drawAt s).1.state := by
  apply ScrollState.showing_of_shown
  rw [drawAt_content, ← h]
  rw [drawAt_keeps]
  rfl

end Showing

section Run

variable {t : TextBox}

theorem after_keeps (t : TextBox) (history : List (Showing Id Look)) :
    afterShowings drawAt t history =
      ({ t with state := (afterShowings drawAt t history).state } : TextBox) := by
  have hstep : ∀ s ∈ history, ∀ before : TextBox, before = { t with state := before.state } →
      (before.drawAt s).1 = { t with state := (before.drawAt s).1.state } := by
    intro s _ before hbefore
    rw [drawAt_keeps, hbefore]
  exact afterShowings_invariant
    (P := fun after : TextBox => after = { t with state := after.state }) rfl hstep

theorem scrolls_after (t : TextBox) (history : List (Showing Id Look)) (s : Showing Id Look) :
    (afterShowings drawAt t history).scrolls s = t.scrolls s := by
  rw [after_keeps]
  rfl

/-- A step of a text that was drawn before. -/
theorem drawAt_of_step_after (hscroll : t.scroll = .always) {history : List (Showing Id Look)}
    {s : Showing Id Look} (h : (afterShowings drawAt t history).steps s = true) :
    ∃ face, s.surroundings.font t.font = some face ∧
      ((afterShowings drawAt t history).drawAt s).1.state =
        { (afterShowings drawAt t history).found s with
          offset := wrapOnce ((afterShowings drawAt t history).found s).offset (max t.speed 1)
            (t.round face s)
          lastChange := s.now
          scrolling := true } := by
  have hfont : (afterShowings drawAt t history).font = t.font := by rw [after_keeps]
  have hspeed : (afterShowings drawAt t history).speed = t.speed := by rw [after_keeps]
  have hscrollKept : (afterShowings drawAt t history).scroll = .always := by
    rw [after_keeps]
    exact hscroll
  have hround : ∀ face, (afterShowings drawAt t history).round face s = t.round face s := by
    intro face
    rw [after_keeps]
    rfl
  obtain ⟨face, hface, hstate⟩ := drawAt_of_step hscrollKept h
  rw [hspeed, hround] at hstate
  exact ⟨face, hfont ▸ hface, hstate⟩

theorem found_after_cons (earlier : List (Showing Id Look)) {last s : Showing Id Look}
    (hsame : t.content s.surroundings = t.content last.surroundings) :
    (afterShowings drawAt t (last :: earlier)).found s =
      ((afterShowings drawAt t earlier).drawAt last).1.state := by
  apply found_of_drawn
  rw [after_keeps]
  exact hsame

theorem found_of_new {content : String} (hnew : t.state.content ≠ some content)
    {s : Showing Id Look} (hcontent : t.content s.surroundings = content) :
    t.found s = { content := some content, lastChange := s.now } := by
  rw [found, hcontent]
  exact if_neg hnew

theorem stepTimes_of_idle {last : Showing Id Look} {earlier : List (Showing Id Look)}
    (h : (afterShowings drawAt t earlier).steps last = false) :
    t.stepTimes (last :: earlier) = t.stepTimes earlier := if_neg (ne_true_of_eq_false h)

theorem stepTimes_of_step {last : Showing Id Look} {earlier : List (Showing Id Look)}
    (h : (afterShowings drawAt t earlier).steps last = true) :
    t.stepTimes (last :: earlier) = last.now :: t.stepTimes earlier := if_pos h

/-- When a text has last moved, or appeared, and whether it has come to rest: that is what it has
once it was drawn at a showing at which it did not scroll. -/
theorem rest_after (hscroll : t.scroll = .always) {content : String}
    (hnew : t.state.content ≠ some content) (s : Showing Id Look) (history : List (Showing Id Look))
    (hcontent : ∀ o ∈ s :: history, t.content o.surroundings = content) :
    ((afterShowings drawAt t history).found s).lastChange =
        (t.stepTimes history).head?.getD ((s :: history).getLast (List.cons_ne_nil _ _)).now ∧
      ((afterShowings drawAt t history).found s).loopReached = !history.all t.scrolls := by
  induction history generalizing s with
  | nil =>
      change (t.found s).lastChange = _ ∧ (t.found s).loopReached = _
      rw [found_of_new hnew (hcontent s List.mem_cons_self)]
      exact ⟨rfl, rfl⟩
  | cons last earlier ih =>
      obtain ⟨hs, hearlier⟩ := List.forall_mem_cons.mp hcontent
      obtain ⟨hlast, hrest⟩ := ih last hearlier
      rw [found_after_cons earlier (hs.trans (hearlier last List.mem_cons_self).symm),
        List.all_cons, ← scrolls_after t earlier last]
      cases hsteps : (afterShowings drawAt t earlier).steps last with
      | false =>
          obtain ⟨-, hlastKept, hrestKept⟩ := drawAt_of_idle hsteps
          rw [hlastKept, hrestKept, hlast, hrest, stepTimes_of_idle hsteps, Bool.not_and,
            Bool.or_comm]
          exact ⟨rfl, rfl⟩
      | true =>
          obtain ⟨face, -, hstate⟩ := drawAt_of_step_after hscroll hsteps
          have htimes : t.stepTimes (last :: earlier) = last.now :: t.stepTimes earlier :=
            if_pos (hsteps)
          rw [hstate, htimes, (Bool.and_eq_true_iff.mp hsteps).1, Bool.true_and, ← hrest]
          exact ⟨rfl, rfl⟩

/-- When a text moves a step on: it scrolls, it has always scrolled, and the pause is over. -/
theorem steps_after (hscroll : t.scroll = .always) {content : String}
    (hnew : t.state.content ≠ some content) (s : Showing Id Look) (history : List (Showing Id Look))
    (hcontent : ∀ o ∈ s :: history, t.content o.surroundings = content) :
    (afterShowings drawAt t history).steps s = true ↔
      t.scrolls s = true ∧ (∀ o ∈ history, t.scrolls o = true) ∧
        t.pause ≤ s.now - (t.stepTimes history).head?.getD
          ((s :: history).getLast (List.cons_ne_nil _ _)).now := by
  obtain ⟨hchange, hrest⟩ := rest_after hscroll hnew s history hcontent
  have hpause : (afterShowings drawAt t history).pause = t.pause := by rw [after_keeps]
  rw [steps, scrolls_after, ScrollState.isDue, hchange, hrest, hpause, Bool.not_not]
  simp only [Bool.and_eq_true, List.all_eq_true, decide_eq_true_eq]

theorem pause_is_over (s previous : Showing Id Look) {earlier : List (Showing Id Look)}
    (htimes : ∀ o ∈ earlier, o.now ≤ previous.now)
    (hdue : (t.stepTimes (previous :: earlier)).head?.getD previous.now + t.pause ≤ s.now) :
    t.pause ≤ s.now - (t.stepTimes (previous :: earlier)).head?.getD
      ((s :: previous :: earlier).getLast (List.cons_ne_nil _ _)).now := by
  cases hhead : (t.stepTimes (previous :: earlier)).head? with
  | some time =>
      rw [hhead, Option.getD_some] at hdue
      rw [Option.getD_some]
      omega
  | none =>
      rw [hhead, Option.getD_none] at hdue
      rw [Option.getD_none, List.getLast_cons_cons]
      have hstart : ((previous :: earlier).getLast (List.cons_ne_nil _ _)).now ≤ previous.now := by
        obtain hfirst | hfirst := List.mem_cons.mp (List.getLast_mem (List.cons_ne_nil previous _))
        · exact (congrArg Showing.now hfirst).le
        · exact htimes _ hfirst
      omega

/-- What a text says at a showing, and what it is drawn with if it has its font. -/
structure Reads (t : TextBox) (content : String) (face : Face) (separator : String)
    (s : Showing Id Look) : Prop where
  content : t.content s.surroundings = content
  face : ∀ found, s.surroundings.font t.font = some found → found = face
  separator : s.surroundings.separator = separator

theorem offset_after (hscroll : t.scroll = .always) {content : String}
    (hnew : t.state.content ≠ some content) {face : Face} {separator : String}
    (s : Showing Id Look) (history : List (Showing Id Look))
    (hreads : ∀ o ∈ s :: history, t.Reads content face separator o) :
    ((afterShowings drawAt t history).found s).offset =
      offsetAfter (t.stepTimes history).length (max t.speed 1) (cycle face content separator) := by
  induction history generalizing s with
  | nil =>
      change (t.found s).offset = offsetAfter 0 _ _
      rw [found_of_new hnew (hreads s List.mem_cons_self).content, offsetAfter_zero]
  | cons last earlier ih =>
      obtain ⟨hs, hearlier⟩ := List.forall_mem_cons.mp hreads
      have hlast := hearlier last List.mem_cons_self
      have hoffset := ih last hearlier
      rw [found_after_cons earlier (hs.content.trans hlast.content.symm)]
      cases hsteps : (afterShowings drawAt t earlier).steps last with
      | false =>
          obtain ⟨hoffsetKept, -, -⟩ := drawAt_of_idle hsteps
          rw [hoffsetKept, hoffset, stepTimes_of_idle hsteps]
      | true =>
          obtain ⟨found, hfound, hstate⟩ := drawAt_of_step_after hscroll hsteps
          have hround : t.round found last = cycle face content separator := by
            rw [hlast.face found hfound, ← hlast.content, ← hlast.separator]
            rfl
          rw [hstate, stepTimes_of_step hsteps, List.length_cons, hoffset, hround]
          exact wrapOnce_offsetAfter (Int.le_max_right _ _) _ _

end Run

/-- A text that scrolls for ever if it is wider than its box. -/
def banner (text : String) (speed : Int) : TextBox where
  font := "f"
  text := ⟨[.literal text]⟩
  scroll := .always
  speed

/-- The font of banners: every character is six pixels wide. -/
def evenFace : Face := ⟨6, 8, 7, 0, 8, fun _ => 6, fun _ => none⟩

/-- A box of some width, at some time, where the font of banners is there. -/
def panel (width : Int) (now : Nat) : Occasion (fun _ (_ : Unit) => True) Look :=
  .fixed Widget.gallery ⟨⟨0, 0, width - 1, 7⟩, .black, .white⟩ now

theorem font_panel (width : Int) (now : Nat) :
    (panel width now).world.font "f" = some evenFace := by
  change (if "f" = "f" then some evenFace else none) = some evenFace
  exact if_pos rfl

theorem banner_reads (text : String) (speed width : Int) (now : Nat) :
    (banner text speed).Reads text evenFace defaultSeparator (panel width now).inWorld where
  content := rfl
  face _ h := Option.some.inj (h.symm.trans (font_panel width now))
  separator := rfl

variable {σ : Type} {valid : Cells → σ → Prop}

/-- A text that scrolls for ever moves on when a step is due: when the pause is over since its last
step or, before its first, since the showing before. But that is so only if it has scrolled at every
showing since it appeared; once it had no font or fitted its box, it stays where it is. -/
theorem moves_when_due {t : TextBox} (hscroll : t.scroll = .always) {content : String}
    (hnew : t.state.content ≠ some content) (earlier : List (Occasion valid Look))
    (previous last : Occasion valid Look)
    (hcontent : ∀ o ∈ last :: previous :: earlier, t.content o.world = content)
    (htimes : ∀ o ∈ earlier, o.now ≤ previous.now) (hlast : t.scrolls last.inWorld = true)
    {face : Face} (hface : last.world.font t.font = some face)
    (hdue : (t.stepTimes ((previous :: earlier).map Occasion.inWorld)).head?.getD previous.now +
      t.pause ≤ last.now) :
    let before := afterShowings drawAt t ((previous :: earlier).map Occasion.inWorld)
    let drawn := before.drawAt last.inWorld
    (steadily valid).rel drawn
        (afterShowings drawAt t ((previous :: earlier).map Occasion.inRun) >>=
          (drawAt · last.inRun)) ∧
      ((∀ o ∈ previous :: earlier, t.scrolls o.inWorld = true) →
        drawn.1.state.offset ≡ before.state.offset + max t.speed 1
          [ZMOD cycle face content last.world.separator]) ∧
      ((∃ o ∈ previous :: earlier, t.scrolls o.inWorld = false) →
        drawn.1.state.offset = before.state.offset) := by
  intro before drawn
  have hrelated := Occasion.last_related (fun a o => o.text_related a) t (previous :: earlier) last
  have hshown : ∀ s ∈ (last :: previous :: earlier).map Occasion.inWorld,
      t.content s.surroundings = content := List.forall_mem_map.mpr hcontent
  have hsteps := steps_after hscroll hnew last.inWorld
    ((previous :: earlier).map Occasion.inWorld) hshown
  rw [List.forall_mem_map] at hsteps
  have hfound : before.found last.inWorld = before.state :=
    found_after_cons (earlier.map Occasion.inWorld)
      ((hcontent last (by simp)).trans (hcontent previous (by simp)).symm)
  refine ⟨hrelated, ?_, ?_⟩
  · intro hall
    have hpause := pause_is_over last.inWorld previous.inWorld (List.forall_mem_map.mpr htimes) hdue
    obtain ⟨other, hother, hstate⟩ := drawAt_of_step_after hscroll
      (hsteps.mpr ⟨hlast, hall, hpause⟩)
    have hround : t.round other last.inWorld = cycle face content last.world.separator := by
      rw [← hcontent last List.mem_cons_self]
      obtain rfl := Option.some.inj (hface.symm.trans hother)
      rfl
    rw [show drawn.1.state = _ from hstate, hround, ← hfound]
    exact wrapOnce_modEq _ _ _
  · rintro ⟨o, ho, hidle⟩
    have hsteps : before.steps last.inWorld = false := by
      apply Bool.eq_false_iff.mpr
      intro hmoves
      simp [(hsteps.mp hmoves).2.1 o ho] at hidle
    exact (drawAt_of_idle hsteps).1.trans (congrArg ScrollState.offset hfound)

/-- A banner that moved on at 100 is drawn at 130 and 200. -/
theorem moves_when_due_banner :
    let t := banner "now playing" 1
    let earlier := [panel 30 100, panel 30 0]
    let previous := panel 30 130
    let last := panel 30 200
    let before := afterShowings drawAt t ((previous :: earlier).map Occasion.inWorld)
    t.scroll = .always ∧ t.state.content ≠ some "now playing" ∧
      (∀ o ∈ last :: previous :: earlier, t.content o.world = "now playing") ∧
      (∀ o ∈ earlier, o.now ≤ previous.now) ∧ t.scrolls last.inWorld = true ∧
      last.world.font t.font = some evenFace ∧
      (t.stepTimes ((previous :: earlier).map Occasion.inWorld)).head?.getD previous.now +
        t.pause ≤ last.now ∧
      before.state.offset = 1 ∧
      (before.drawAt last.inWorld).1.state.offset ≡ before.state.offset + max t.speed 1
        [ZMOD cycle evenFace "now playing" last.world.separator] := by
  intro t earlier previous last before
  have hnew : t.state.content ≠ some "now playing" := by simp [t, banner]
  have hcontent : ∀ o ∈ last :: previous :: earlier, t.content o.world = "now playing" := by
    simp only [earlier, List.forall_mem_cons]
    exact ⟨rfl, rfl, rfl, rfl, by simp⟩
  have htimes : ∀ o ∈ earlier, o.now ≤ previous.now := by decide
  have hlast : t.scrolls last.inWorld = true := by decide +kernel
  have hface : last.world.font t.font = some evenFace := font_panel 30 200
  have hdue : (t.stepTimes ((previous :: earlier).map Occasion.inWorld)).head?.getD previous.now +
      t.pause ≤ last.now := by decide +kernel
  have hall : ∀ o ∈ previous :: earlier, t.scrolls o.inWorld = true := by decide +kernel
  have hfirst : before.state.offset = 1 := by decide +kernel
  obtain ⟨-, hmoves, -⟩ :=
    moves_when_due rfl hnew earlier previous last hcontent htimes hlast hface hdue
  refine ⟨rfl, hnew, hcontent, htimes, hlast, hface, hdue, hfirst, ?_⟩
  unfold before
  exact hmoves hall

/-- A banner fits its box at first. The box has been narrower from 50 on, but the banner does not
move at 200, when its pause of 100 is over. -/
theorem stays_after_fitting :
    let t := banner "abab" 1
    let before : TextBox := afterShowings drawAt t [(panel 10 50).inWorld, (panel 40 0).inWorld]
    let drawn := before.drawAt (panel 10 200).inWorld
    t.scrolls (panel 10 50).inWorld = true ∧ t.scrolls (panel 10 200).inWorld = true ∧
      t.stepTimes [(panel 10 50).inWorld, (panel 40 0).inWorld] = [] ∧ 50 + t.pause ≤ 200 ∧
      ¬ drawn.1.state.offset ≡ before.state.offset + max t.speed 1
        [ZMOD cycle evenFace "abab" defaultSeparator] := by
  decide +kernel

/-- How far a text that scrolls for ever has come depends on the number of its steps alone. Steps no
longer than a round never lead out of it; each longer one leads further out. -/
theorem offset_of_steps {t : TextBox} (hscroll : t.scroll = .always) {content : String}
    (hnew : t.state.content ≠ some content) {face : Face} {separator : String}
    (earlier : List (Occasion valid Look)) (last : Occasion valid Look)
    (hreads : ∀ o ∈ last :: earlier, t.Reads content face separator o.inWorld) :
    let drawn := (afterShowings drawAt t (earlier.map Occasion.inWorld)).drawAt last.inWorld
    let taken := (t.stepTimes ((last :: earlier).map Occasion.inWorld)).length
    let step := max t.speed 1
    let round := cycle face content separator
    let offset := drawn.1.state.offset
    (steadily valid).rel drawn
        (afterShowings drawAt t (earlier.map Occasion.inRun) >>= (drawAt · last.inRun)) ∧
      offset = (if step ≤ round then taken * step % round else taken * (step - round)) ∧
      (step ≤ round →
        0 ≤ offset ∧ offset < round ∧ (round + step ≤ 2 ^ 31 → offset + step < 2 ^ 31)) := by
  intro drawn taken step round offset
  have hrelated := Occasion.last_related (fun a o => o.text_related a) t earlier last
  -- After the last showing the text is as it would be found there again.
  have hfound : drawn.1.state = (afterShowings drawAt t
      ((last :: earlier).map Occasion.inWorld)).found last.inWorld :=
    (found_after_cons (earlier.map Occasion.inWorld) rfl).symm
  have hoffset : offset = offsetAfter taken step round := by
    unfold offset
    rw [hfound]
    apply offset_after hscroll hnew
    simpa using hreads
  have hstep : 1 ≤ step := Int.le_max_right _ _
  refine ⟨hrelated, hoffset, ?_⟩
  intro hcycle
  obtain ⟨hnonneg, hlt⟩ := offsetAfter_mem hstep hcycle taken
  rw [hoffset]
  exact ⟨hnonneg, hlt, by omega⟩

/-- Three steps of 40 pixels, in a round of 96. -/
theorem offset_of_steps_banner :
    let t := banner "now playing" 40
    let earlier := [panel 30 200, panel 30 100, panel 30 0]
    let last := panel 30 300
    t.scroll = .always ∧ t.state.content ≠ some "now playing" ∧
      (∀ o ∈ last :: earlier, t.Reads "now playing" evenFace defaultSeparator o.inWorld) ∧
      ((afterShowings drawAt t (earlier.map Occasion.inWorld)).drawAt
        last.inWorld).1.state.offset = 3 * 40 % 96 := by
  intro t earlier last
  have hnew : t.state.content ≠ some "now playing" := by simp [t, banner]
  have hreads : ∀ o ∈ last :: earlier,
      t.Reads "now playing" evenFace defaultSeparator o.inWorld := by
    simp only [earlier, List.forall_mem_cons]
    exact ⟨banner_reads _ _ _ _, banner_reads _ _ _ _, banner_reads _ _ _ _, banner_reads _ _ _ _,
      by simp⟩
  have hsteps : (t.stepTimes ((last :: earlier).map Occasion.inWorld)).length = 3 := by
    decide +kernel
  have hround : cycle evenFace "now playing" defaultSeparator = 96 := by decide +kernel
  obtain ⟨-, hoffset, -⟩ := offset_of_steps rfl hnew earlier last hreads
  refine ⟨rfl, hnew, hreads, ?_⟩
  rw [hsteps, hround] at hoffset
  exact hoffset

/-- A step of 100 pixels is longer than the round of 48 of a banner. After two of them the banner
has left the round, and every step takes it further away. -/
theorem leaves_round :
    let t := banner "aba" 100
    let drawn := (afterShowings drawAt t [(panel 12 100).inWorld, (panel 12 0).inWorld]).drawAt
      (panel 12 200).inWorld
    (∀ width ∈ [panel 12 0, panel 12 100, panel 12 200].map (·.place.box.width),
      0 ≤ width ∧ width < evenFace.textWidth "aba") ∧
      ¬ drawn.1.state.offset < cycle evenFace "aba" defaultSeparator := by
  decide +kernel

end TextBox

end PanelSkin
