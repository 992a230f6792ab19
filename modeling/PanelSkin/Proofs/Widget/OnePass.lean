import PanelSkin.Proofs.Widget.Scrolling

/-!
Texts that scroll once. From the showing at which it appears a text makes the steps of one round,
each as soon as a pause is over. The last step leads it back to its start, and there it stays: no
later drawing changes anything, and none is asked for, until it says something else.
-/

namespace PanelSkin

/-- The number of steps in a round, of which the last may lead beyond its end. A text that has to
scroll makes one at least. -/
def stepsInRound (step round : Int) : Nat := max 1 ((round + step - 1) / step).toNat

theorem stepsInRound_pos (step round : Int) : 0 < stepsInRound step round := Nat.le_max_left _ _

theorem lt_stepsInRound {step : Int} (hstep : 1 ≤ step) (round : Int) (taken : Nat) :
    taken + 1 < stepsInRound step round ↔ ((taken : Int) + 1) * step < round := by
  have hquotient : (taken : Int) + 1 + 1 ≤ (round + step - 1) / step ↔
      ((taken : Int) + 1 + 1) * step ≤ round + step - 1 := Int.le_ediv_iff_mul_le (by omega)
  rw [Int.add_mul, Int.one_mul] at hquotient
  unfold stepsInRound
  omega

theorem mul_lt_of_lt_stepsInRound {step round : Int} (hstep : 1 ≤ step) (hround : 0 < round)
    {taken : Nat} (h : taken < stepsInRound step round) : taken * step < round := by
  cases taken with
  | zero => simpa using hround
  | succ taken => exact (lt_stepsInRound hstep round taken).mp h

/-- When a text that makes so many steps makes them, at showings at some times: as soon as the pause
is over since the step before or, for the first one, since the start. The latest comes first. -/
def passTimes (pause limit start : Nat) : List Nat → List Nat
  | [] => []
  | now :: earlier =>
    let taken := passTimes pause limit start earlier
    if taken.length < limit ∧ taken.head?.getD start + pause ≤ now then now :: taken else taken

theorem passTimes_length_le (pause limit start : Nat) (times : List Nat) :
    (passTimes pause limit start times).length ≤ limit := by
  induction times with
  | nil => exact Nat.zero_le limit
  | cons now earlier ih =>
      rw [passTimes]
      split
      · exact And.left ‹_›
      · exact ih

theorem passTimes_subset (pause limit start : Nat) (times : List Nat) :
    passTimes pause limit start times ⊆ times := by
  induction times with
  | nil => exact List.Subset.refl []
  | cons now earlier ih =>
      rw [passTimes]
      split
      · exact List.cons_subset_cons now ih
      · exact List.subset_cons_of_subset now ih

/-- The last step, or the start, is past. -/
theorem head_passTimes_le {pause limit start now : Nat} {times : List Nat} (hstart : start ≤ now)
    (htimes : ∀ time ∈ times, time ≤ now) :
    (passTimes pause limit start times).head?.getD start ≤ now := by
  cases hhead : (passTimes pause limit start times).head? with
  | none => exact hstart
  | some time =>
      exact htimes time (passTimes_subset _ _ _ _ (List.mem_of_head? hhead))

/-- The state of a text that scrolls once, when it has made its steps at some times. -/
def ScrollState.onePass (content : String) (step round : Int) (start : Nat) (taken : List Nat) :
    ScrollState where
  content := some content
  offset := if taken.length < stepsInRound step round then taken.length * step else 0
  lastChange := taken.head?.getD start
  scrolling := true
  loopReached := stepsInRound step round ≤ taken.length

theorem ScrollState.step_onePass {content : String} {speed round : Int} {start : Nat}
    {taken : List Nat} (hmore : taken.length < stepsInRound (max speed 1) round) (now : Nat) :
    (onePass content (max speed 1) round start taken).step .once speed round now =
      onePass content (max speed 1) round start (now :: taken) := by
  have hlast := lt_stepsInRound (Int.le_max_right speed 1) round taken.length
  have hoffset : (taken.length : Int) * max speed 1 + max speed 1 =
      ((taken.length : Int) + 1) * max speed 1 := by
    rw [Int.add_mul, Int.one_mul]
  unfold step onePass
  simp only [if_pos hmore, hoffset, List.length_cons, Int.natCast_succ, List.head?_cons,
    Option.getD_some, if_true]
  by_cases hwithin : taken.length + 1 < stepsInRound (max speed 1) round
  · rw [if_pos (hlast.mp hwithin), if_pos hwithin]
    simp only [Nat.not_le.mpr hmore, Nat.not_le.mpr hwithin]
  · rw [if_neg (mt hlast.mpr hwithin), if_neg hwithin]
    simp [Nat.not_lt.mp hwithin]

namespace TextBox

/-- Drawing takes the next step if it is due and the round is not over. -/
theorem scrolled_onePass {t : TextBox} (honce : t.scroll = .once) {content : String} {round : Int}
    {start now : Nat} {taken : List Nat} {state : ScrollState}
    (hstate : { state with scrolling := true } =
      ScrollState.onePass content (max t.speed 1) round start taken)
    (hpast : taken.head?.getD start ≤ now) :
    t.scrolled state round now = ScrollState.onePass content (max t.speed 1) round start
      (if taken.length < stepsInRound (max t.speed 1) round ∧
          taken.head?.getD start + t.pause ≤ now then now :: taken else taken) := by
  unfold scrolled
  rw [hstate, honce]
  have hdue : (ScrollState.onePass content (max t.speed 1) round start taken).isDue t.pause now =
      true ↔ taken.length < stepsInRound (max t.speed 1) round ∧
        taken.head?.getD start + t.pause ≤ now := by
    change (!decide (stepsInRound (max t.speed 1) round ≤ taken.length) &&
      decide (t.pause ≤ now - taken.head?.getD start)) = true ↔ _
    simp only [Bool.and_eq_true, Bool.not_eq_true', decide_eq_false_iff_not, decide_eq_true_eq]
    -- A pause of zero is over at any time that is not before the last step.
    omega
  by_cases h : (ScrollState.onePass content (max t.speed 1) round start taken).isDue t.pause now =
      true
  · have hmore := hdue.mp h
    rw [if_pos hmore]
    exact (if_pos h).trans (ScrollState.step_onePass hmore.1 now)
  · rw [if_neg (mt hdue.mpr h)]
    exact if_neg h

/-- A showing at which a text scrolls, and reads as at others. -/
structure Passes (t : TextBox) (content : String) (face : Face) (separator : String)
    (s : Showing Id Look) : Prop extends t.Reads content face separator s where
  scrolls : t.scrolls s = true

section Run

variable {t : TextBox} {content : String} {face : Face} {separator : String}

theorem Passes.drawAt_after {s : Showing Id Look} (h : t.Passes content face separator s)
    (history : List (Showing Id Look)) :
    ((afterShowings drawAt t history).drawAt s).1.state =
      t.scrolled ((afterShowings drawAt t history).found s) (cycle face content separator)
        s.now := by
  obtain ⟨hrests, -⟩ | ⟨-, found, hfound, hdrawn⟩ :=
    (afterShowings drawAt t history : TextBox).drawAt_cases s
  · rw [scrolls_after, h.scrolls] at hrests
    cases hrests
  · rw [after_keeps] at hfound hdrawn ⊢
    rw [hdrawn, round]
    obtain rfl := h.face found hfound
    change t.scrolled _ (cycle found (t.content s.surroundings) s.surroundings.separator) s.now = _
    rw [h.content, h.separator]

/-- Drawing takes the text from the steps it has made to those it has made then. -/
theorem Passes.drawAt_onePass (honce : t.scroll = .once) {s : Showing Id Look}
    (h : t.Passes content face separator s) {history : List (Showing Id Look)} {start : Nat}
    {taken : List Nat}
    (hfound : { (afterShowings drawAt t history).found s with scrolling := true } =
      ScrollState.onePass content (max t.speed 1) (cycle face content separator) start taken)
    (hpast : taken.head?.getD start ≤ s.now) :
    ((afterShowings drawAt t history).drawAt s).1.state =
      ScrollState.onePass content (max t.speed 1) (cycle face content separator) start
        (if taken.length < stepsInRound (max t.speed 1) (cycle face content separator) ∧
            taken.head?.getD start + t.pause ≤ s.now then s.now :: taken else taken) :=
  (h.drawAt_after history).trans (scrolled_onePass honce hfound hpast)

/-- What has become of a text that scrolls once: it has made its steps as they came due. -/
theorem onePass_after (honce : t.scroll = .once) (hnew : t.state.content ≠ some content)
    (s : Showing Id Look) (history : List (Showing Id Look))
    (hpasses : ∀ o ∈ s :: history, t.Passes content face separator o)
    (htimes : (s :: history).Pairwise fun later earlier => earlier.now ≤ later.now) :
    let step := max t.speed 1
    let round := cycle face content separator
    let start := ((s :: history).getLast (List.cons_ne_nil _ _)).now
    ((afterShowings drawAt t history).drawAt s).1.state =
      ScrollState.onePass content step round start
        (passTimes t.pause (stepsInRound step round) start ((s :: history).map (·.now))) := by
  intro step round start
  induction history generalizing s with
  | nil =>
      have h := hpasses s List.mem_cons_self
      have hstart : { t.found s with scrolling := true } =
          ScrollState.onePass content step round start [] := by
        rw [found_of_new hnew h.content]
        simp [ScrollState.onePass, (stepsInRound_pos step round).ne', start]
      exact h.drawAt_onePass honce hstart (Nat.le_refl _)
  | cons last earlier ih =>
      obtain ⟨hs, hearlier⟩ := List.forall_mem_cons.mp hpasses
      obtain ⟨hpast, hordered⟩ := List.pairwise_cons.mp htimes
      have hstart : start ≤ s.now := hpast _ (List.getLast_mem (List.cons_ne_nil last earlier))
      apply hs.drawAt_onePass honce _
        (head_passTimes_le hstart (List.forall_mem_map.mpr hpast))
      rw [found_after_cons earlier
        (hs.content.trans (hearlier last List.mem_cons_self).content.symm), ih last hearlier hordered]
      rfl

end Run

theorem Passes.of_state {t : TextBox} {content : String} {face : Face} {separator : String}
    {s : Showing Id Look} (h : t.Passes content face separator s) (state : ScrollState) :
    ({ t with state } : TextBox).Passes content face separator s where
  content := h.content
  face := h.face
  separator := h.separator
  scrolls := h.scrolls

/-- A text whose round is over is left as it is by every further drawing. -/
theorem drawAt_of_over {t : TextBox} {content : String} {face : Face} {separator : String}
    (hcontent : t.state.content = some content) (hscrolling : t.state.scrolling = true)
    (hover : t.state.loopReached = true) {s : Showing Id Look}
    (h : t.Passes content face separator s) : (t.drawAt s).1 = t := by
  have hfound : t.found s = t.state := ScrollState.showing_of_shown (h.content ▸ hcontent)
  have hidle : t.state.isDue t.pause s.now = false := by simp [ScrollState.isDue, hover]
  obtain ⟨hrests, -⟩ | ⟨-, found, -, hdrawn⟩ := t.drawAt_cases s
  · rw [h.scrolls] at hrests
    cases hrests
  · have hstays : t.scrolled t.state (t.round found s) s.now = { t.state with scrolling := true } :=
      if_neg (ne_true_of_eq_false hidle)
    rw [hdrawn, hfound, hstays, ← hscrolling]

theorem after_of_over {t : TextBox} {content : String} {face : Face} {separator : String}
    (hcontent : t.state.content = some content) (hscrolling : t.state.scrolling = true)
    (hover : t.state.loopReached = true) {later : List (Showing Id Look)}
    (hpasses : ∀ s ∈ later, t.Passes content face separator s) :
    afterShowings drawAt t later = t := by
  have hstep : ∀ s ∈ later, ∀ before : TextBox, before = t → (before.drawAt s).1 = t := by
    intro s hs before hbefore
    rw [hbefore]
    exact drawAt_of_over hcontent hscrolling hover (hpasses s hs)
  exact afterShowings_invariant (P := (· = t)) rfl hstep

/-- It has to be drawn again when it says something else. -/
theorem needsUpdate_of_over {t : TextBox} {content : String}
    (hcontent : t.state.content = some content) (hover : t.state.loopReached = true)
    {world : Surroundings Id} {now : Nat} :
    t.needsUpdate world now = decide (content ≠ t.content world) := by
  change (decide (t.state.content ≠ some (t.content world)) ||
    (t.state.scrolling && t.state.isDue t.pause now)) = _
  simp [ScrollState.isDue, hover, hcontent]

variable {σ : Type} {valid : Cells → σ → Prop}

/-- A text that scrolls once goes through the steps of one round, each when it is due, and is then
back at its start for good: however often and whenever it is drawn after that, it stays as it is, and
it does not have to be drawn again until it says something else. -/
theorem once_makes_one_pass {t : TextBox} (honce : t.scroll = .once) {content : String}
    (hnew : t.state.content ≠ some content) {face : Face} {separator : String}
    (earlier : List (Occasion valid Look)) (last : Occasion valid Look)
    (hpasses : ∀ o ∈ last :: earlier, t.Passes content face separator o.inWorld)
    (htimes : (last :: earlier).Pairwise fun later earlier => earlier.now ≤ later.now) :
    let drawn := (afterShowings drawAt t (earlier.map Occasion.inWorld)).drawAt last.inWorld
    let step := max t.speed 1
    let round := cycle face content separator
    let all := stepsInRound step round
    let start := ((last :: earlier).getLast (List.cons_ne_nil _ _)).now
    let taken := (passTimes t.pause all start ((last :: earlier).map (·.now))).length
    (steadily valid).rel drawn
        (afterShowings drawAt t (earlier.map Occasion.inRun) >>= (drawAt · last.inRun)) ∧
      (taken < all → drawn.1.state.offset = taken * step ∧ drawn.1.state.loopReached = false ∧
        (0 < round → round + step ≤ 2 ^ 31 → drawn.1.state.offset + step < 2 ^ 31)) ∧
      (taken = all → drawn.1.state.offset = 0 ∧ drawn.1.state.loopReached = true ∧
        (∀ later : List (Occasion valid Look),
          (∀ o ∈ later, t.Passes content face separator o.inWorld) →
          (steadily valid).rel (drawn.1 : Id TextBox)
            (afterShowings drawAt drawn.1 (later.map Occasion.inRun))) ∧
        ∀ (o : Occasion valid Look) (now : Nat),
          (steadily valid).rel (decide (content ≠ t.content o.world) : Id Bool)
            (drawn.1.needsUpdate o.surroundings now)) ∧
      taken ≤ all := by
  intro drawn step round all start taken
  have hrelated := Occasion.last_related (fun a o => o.text_related a) t earlier last
  have hkeeps : drawn.1 = { t with state := drawn.1.state } :=
    after_keeps t ((last :: earlier).map Occasion.inWorld)
  have hordered : ((last :: earlier).map Occasion.inWorld).Pairwise
      fun later earlier => earlier.now ≤ later.now := List.pairwise_map.mpr htimes
  have hstart : (((last :: earlier).map Occasion.inWorld).getLast (List.cons_ne_nil _ _)).now =
      start := congrArg Showing.now (List.getLast_map _)
  have hnows : ((last :: earlier).map Occasion.inWorld).map (·.now) =
      (last :: earlier).map (·.now) := List.map_map
  have hstate : drawn.1.state = ScrollState.onePass content step round start
      (passTimes t.pause all start ((last :: earlier).map (·.now))) := by
    rw [← hstart, ← hnows]
    exact onePass_after honce hnew last.inWorld (earlier.map Occasion.inWorld)
      (List.forall_mem_map.mpr hpasses) hordered
  refine ⟨hrelated, ?_, ?_, passTimes_length_le _ _ _ _⟩
  · intro hmore
    have hoffset : drawn.1.state.offset = taken * step := by
      rw [hstate]
      exact if_pos hmore
    refine ⟨hoffset, ?_, ?_⟩
    · rw [hstate]
      exact decide_eq_false (Nat.not_le.mpr hmore)
    · intro hround hfits
      have hwithin : taken * step < round :=
        mul_lt_of_lt_stepsInRound (Int.le_max_right _ _) hround hmore
      omega
  · intro hdone
    have hover : drawn.1.state.loopReached = true := by
      rw [hstate]
      exact decide_eq_true hdone.ge
    have hscrolling : drawn.1.state.scrolling = true := by rw [hstate]; rfl
    have hcontent : drawn.1.state.content = some content := by rw [hstate]; rfl
    refine ⟨?_, hover, ?_, ?_⟩
    · rw [hstate]
      exact if_neg (Nat.not_lt.mpr hdone.ge)
    · intro later hlater
      have hlaterPasses : ∀ s ∈ later.map Occasion.inWorld,
          drawn.1.Passes content face separator s := by
        rw [hkeeps]
        exact fun s hs => (List.forall_mem_map.mpr hlater s hs).of_state _
      have hstays : afterShowings drawAt drawn.1 (later.map Occasion.inWorld) = drawn.1 :=
        after_of_over hcontent hscrolling hover hlaterPasses
      have hlaterRelated := Occasion.after_related (fun a o => o.text_related a) drawn.1 later
      rwa [hstays] at hlaterRelated
    · intro o now
      have hcontents : drawn.1.content o.world = t.content o.world := by rw [hkeeps]; rfl
      have hanswers := o.answers.textNeedsUpdate drawn.1 now
      rwa [needsUpdate_of_over hcontent hover, hcontents] at hanswers

/-- A text of 36 pixels that scrolls once, at 25 pixels a step. -/
def headline : TextBox := { banner "abcdef" 25 with scroll := .once }

theorem headline_passes (now : Nat) :
    headline.Passes "abcdef" evenFace defaultSeparator (panel 10 now).inWorld where
  content := rfl
  face _ h := Option.some.inj (h.symm.trans (font_panel 10 now))
  separator := rfl
  scrolls := by
    change headline.scrolls (panel 10 0).inWorld = true
    decide +kernel

/-- A round of 66 pixels takes three steps. They are made at 100, 200 and 300, but not at 150, and
later nothing happens any more. -/
theorem once_makes_one_pass_headline :
    let earlier := [panel 10 200, panel 10 150, panel 10 100, panel 10 0]
    let last := panel 10 300
    let drawn := (afterShowings drawAt headline (earlier.map Occasion.inWorld)).drawAt last.inWorld
    headline.scroll = .once ∧ headline.state.content ≠ some "abcdef" ∧
      (∀ o ∈ last :: earlier, headline.Passes "abcdef" evenFace defaultSeparator o.inWorld) ∧
      (last :: earlier).Pairwise (fun later earlier => earlier.now ≤ later.now) ∧
      drawn.1.state.offset = 0 ∧ drawn.1.state.loopReached = true ∧
      (steadily fun _ (_ : Unit) => True).rel (drawn.1 : Id TextBox)
        (afterShowings drawAt drawn.1 ([panel 10 900, panel 10 400].map Occasion.inRun)) ∧
      (steadily fun _ (_ : Unit) => True).rel (false : Id Bool)
        (drawn.1.needsUpdate (panel 10 60000).surroundings 60000) := by
  intro earlier last drawn
  have hnew : headline.state.content ≠ some "abcdef" := by simp [headline, banner]
  have hpasses : ∀ o ∈ last :: earlier,
      headline.Passes "abcdef" evenFace defaultSeparator o.inWorld := by
    simp only [earlier, List.forall_mem_cons]
    exact ⟨headline_passes _, headline_passes _, headline_passes _, headline_passes _,
      headline_passes _, by simp⟩
  have htimes : (last :: earlier).Pairwise fun later earlier => earlier.now ≤ later.now := by
    decide
  obtain ⟨-, -, hover, -⟩ := once_makes_one_pass rfl hnew earlier last hpasses htimes
  obtain ⟨hoffset, hreached, hstays, hidle⟩ := hover (by decide +kernel)
  refine ⟨rfl, hnew, hpasses, htimes, hoffset, hreached, ?_, hidle (panel 10 60000) 60000⟩
  apply hstays
  simp only [List.forall_mem_cons]
  exact ⟨headline_passes _, headline_passes _, by simp⟩

end TextBox

end PanelSkin
