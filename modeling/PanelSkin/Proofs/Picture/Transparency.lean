import PanelSkin.Proofs.Picture.Outcome

/-!
A cache of pictures answers as if there were none. Every entry holds what loading and scaling
its key gives, and every path set aside as failing does fail; each call keeps both, through
making room and clearing, so both hold after any calls. Until the next clearing, a path set
aside is not loaded again at any size.
-/

namespace PanelSkin.PictureCache

variable {scale : Resampler} {loader : FilePath → Except PictureError Picture}

/-- The picture a request stands for, loaded and scaled anew. -/
def uncached (scale : Resampler) (loader : FilePath → Except PictureError Picture)
    (path : FilePath) (width height : Option Nat) : Option Picture :=
  match loader path with
  | .error _ => none
  | .ok picture =>
    if picture.frames = [] then none
    else if width = none ∧ height = none then some picture
    else some (picture.resized width height scale)

/-- Paths with the same components load alike. -/
def LoadsAlike (loader : FilePath → Except PictureError Picture) : Prop :=
  ∀ p q : FilePath, p.same q → (loader p).toOption = (loader q).toOption

theorem uncached_of_fails {path : FilePath} (hfails : Fails loader path)
    (width height : Option Nat) : uncached scale loader path width height = none := by
  unfold uncached
  cases hloads : loader path with
  | error cause => rfl
  | ok picture =>
      have hframes := hfails picture hloads
      simp [hframes]

theorem uncached_of_loads {path : FilePath} {picture : Picture}
    (hloads : loader path = .ok picture) (hframes : picture.frames ≠ [])
    (width height : Option Nat) :
    uncached scale loader path width height = some (scaled scale picture width height) := by
  simp only [uncached, hloads, if_neg hframes]
  cases width <;> cases height <;> rfl

theorem uncached_congr (halike : LoadsAlike loader) {p q : FilePath} (hsame : p.same q)
    (width height : Option Nat) :
    uncached scale loader p width height = uncached scale loader q width height := by
  have hload := halike p q hsame
  unfold uncached
  cases hp : loader p <;> cases hq : loader q <;> simp [hp, hq, Except.toOption] at hload ⊢
  subst hload
  rfl

theorem fails_congr (halike : LoadsAlike loader) {p q : FilePath} (hsame : p.same q)
    (hfails : Fails loader p) : Fails loader q := by
  intro picture hq
  have hload := halike p q hsame
  cases hp : loader p with
  | error cause => simp [hp, hq, Except.toOption] at hload
  | ok other =>
      obtain rfl : other = picture := by simpa [hp, hq, Except.toOption] using hload
      exact hfails other hp

/-- A cache whose entries are what loading gives, and whose failures are failures. -/
structure Faithful (scale : Resampler) (loader : FilePath → Except PictureError Picture)
    (c : PictureCache) : Prop where
  entries : ∀ e ∈ c.entries,
    uncached scale loader e.key.path e.key.width e.key.height = some e.picture
  failed : ∀ path ∈ c.failed, Fails loader path

theorem Faithful.nothing {c : PictureCache} (hentries : c.entries = [])
    (hfailed : c.failed = []) : Faithful scale loader c := by
  constructor
  · simp [hentries]
  · simp [hfailed]

theorem Faithful.missed {c : PictureCache} (hc : Faithful scale loader c) (key : PictureKey) :
    Faithful scale loader (c.missed key) := by
  constructor
  · intro e he
    obtain ⟨old, hold, rfl⟩ := List.mem_map.1 he
    exact hc.entries old hold
  · exact hc.failed

theorem Faithful.known {c : PictureCache} (hc : Faithful scale loader c)
    (halike : LoadsAlike loader) {path : FilePath} (hknown : c.failedBefore path) :
    Fails loader path := by
  obtain ⟨q, hq, hsame⟩ := failedBefore_iff.1 hknown
  exact fails_congr halike hsame (hc.failed q hq)

/-- Whatever a request does, its answer is that of loading and scaling anew. -/
theorem Outcome.answer {c : PictureCache} {key : PictureKey} {r : Fetched}
    (h : Outcome scale loader c key r) (hc : Faithful scale loader c)
    (halike : LoadsAlike loader) :
    r.picture = uncached scale loader key.path key.width key.height := by
  cases h with
  | hit entry hentry hsame =>
      obtain ⟨hpath, hwidth, hheight⟩ := PictureKey.same_iff.1 hsame
      rw [← uncached_congr halike hpath, ← hwidth, ← hheight]
      exact (hc.entries entry hentry).symm
  | refused habsent hknown =>
      exact (uncached_of_fails (hc.known halike hknown) _ _).symm
  | failing habsent hunknown hfails =>
      exact (uncached_of_fails hfails _ _).symm
  | loaded habsent hunknown picture hloads hframes =>
      exact (uncached_of_loads hloads hframes _ _).symm

theorem Outcome.faithful {c : PictureCache} {key : PictureKey} {r : Fetched}
    (h : Outcome scale loader c key r) (hc : Faithful scale loader c) :
    Faithful scale loader r.cache := by
  have hmissed := hc.missed key
  cases h with
  | hit entry hentry hsame => exact ⟨hmissed.entries, hmissed.failed⟩
  | refused habsent hknown => exact hmissed
  | failing habsent hunknown hfails =>
      refine ⟨hmissed.entries, ?_⟩
      intro path hpath
      rcases List.mem_append.1 hpath with hold | hnew
      · exact hmissed.failed path hold
      · rw [List.mem_singleton.1 hnew]
        exact hfails
  | loaded habsent hunknown picture hloads hframes =>
      refine ⟨?_, hmissed.failed⟩
      intro e he
      rcases mem_keep he with hold | rfl
      · exact hmissed.entries e hold
      · exact uncached_of_loads hloads hframes _ _

/-- A call on a cache. -/
inductive Call where
  | get (name : String) (width height : Option Nat)
  | clear
  deriving DecidableEq, Repr

/-- What a call gives; clearing gives no picture and loads nothing. -/
def Call.run (scale : Resampler) (loader : FilePath → Except PictureError Picture)
    (c : PictureCache) : Call → Fetched
  | .get name width height => c.fetch loader name width height scale
  | .clear => { picture := none, cache := c.clear }

/-- The cache after some calls. -/
def after (scale : Resampler) (loader : FilePath → Except PictureError Picture)
    (c : PictureCache) : List Call → PictureCache
  | [] => c
  | call :: rest => after scale loader (call.run scale loader c).cache rest

/-- The paths loaded during some calls, in order. -/
def loads (scale : Resampler) (loader : FilePath → Except PictureError Picture)
    (c : PictureCache) : List Call → List FilePath
  | [] => []
  | call :: rest =>
    let r := call.run scale loader c
    r.loaded.toList ++ loads scale loader r.cache rest

theorem after_faithful (calls : List Call) {c : PictureCache}
    (hc : Faithful scale loader c) : Faithful scale loader (after scale loader c calls) := by
  induction calls generalizing c with
  | nil => exact hc
  | cons call rest ih =>
      cases call with
      | get name width height =>
          apply ih
          exact (fetch_outcome scale loader c name width height).faithful hc
      | clear =>
          apply ih
          exact Faithful.nothing rfl rfl

theorem after_base (calls : List Call) (c : PictureCache) :
    (after scale loader c calls).base = c.base := by
  induction calls generalizing c with
  | nil => rfl
  | cons call rest ih =>
      rw [after, ih]
      cases call with
      | get name width height => exact (fetch_outcome scale loader c name width height).base
      | clear => rfl

/-- A request loads no path known to fail, and keeps what is known. -/
theorem Outcome.keeps_known {c : PictureCache} {key : PictureKey} {r : Fetched}
    (h : Outcome scale loader c key r) {path : FilePath} (hknown : c.failedBefore path) :
    r.cache.failedBefore path ∧ ∀ q ∈ r.loaded, ¬ q.same path := by
  have hother : ¬ c.failedBefore key.path → ¬ key.path.same path := by
    intro hunknown hsame
    apply hunknown
    obtain ⟨q, hq, hqpath⟩ := failedBefore_iff.1 hknown
    exact failedBefore_iff.2 ⟨q, hq, FilePath.same_trans hqpath (FilePath.same_symm hsame)⟩
  cases h with
  | hit entry hentry hsame => exact ⟨hknown, by simp⟩
  | refused habsent hrefused => exact ⟨hknown, by simp⟩
  | failing habsent hunknown hfails =>
      constructor
      · obtain ⟨q, hq, hqpath⟩ := failedBefore_iff.1 hknown
        exact failedBefore_iff.2 ⟨q, List.mem_append_left _ hq, hqpath⟩
      · simpa using hother hunknown
  | loaded habsent hunknown picture hloads hframes =>
      constructor
      · exact hknown
      · simpa using hother hunknown

/-- A path that fails is known to fail once it was loaded. -/
theorem Outcome.learns {c : PictureCache} {key : PictureKey} {r : Fetched}
    (h : Outcome scale loader c key r) {q path : FilePath} (hloaded : r.loaded = some q)
    (hsame : q.same path) (hfails : Fails loader q) : r.cache.failedBefore path := by
  cases h with
  | hit entry hentry hkey => cases hloaded
  | refused habsent hknown => cases hloaded
  | failing habsent hunknown hkey =>
      cases hloaded
      exact failedBefore_iff.2 ⟨key.path, by simp [fail], hsame⟩
  | loaded habsent hunknown picture hloads hframes =>
      cases hloaded
      exact absurd (hfails picture hloads) hframes

theorem loads_known (calls : List Call) (hclear : Call.clear ∉ calls) {c : PictureCache}
    {path : FilePath} (hknown : c.failedBefore path) :
    (loads scale loader c calls).countP (·.same path) = 0 := by
  induction calls generalizing c with
  | nil => rfl
  | cons call rest ih =>
      obtain ⟨hcall, hrest⟩ := List.ne_and_not_mem_of_not_mem_cons hclear
      cases call with
      | clear => exact absurd rfl hcall
      | get name width height =>
          have hstep := (fetch_outcome scale loader c name
            width height).keeps_known hknown
          rw [loads, List.countP_append, Call.run, ih hrest hstep.1]
          simpa using hstep.2

/-- Without clearing in between, a failing path is loaded at most once. -/
theorem loads_failing_at_most_once (halike : LoadsAlike loader) (calls : List Call)
    (hclear : Call.clear ∉ calls) (c : PictureCache) {path : FilePath}
    (hfails : Fails loader path) :
    (loads scale loader c calls).countP (·.same path) ≤ 1 := by
  induction calls generalizing c with
  | nil => simp [loads]
  | cons call rest ih =>
      obtain ⟨hcall, hrest⟩ := List.ne_and_not_mem_of_not_mem_cons hclear
      cases call with
      | clear => exact absurd rfl hcall
      | get name width height =>
          have hstep := fetch_outcome scale loader c name width height
          rw [loads, List.countP_append]
          cases hloaded : ((Call.get name width height).run scale loader c).loaded with
          | none => simpa using ih hrest _
          | some q =>
              by_cases hsame : q.same path
              · have hqfails := fails_congr halike (FilePath.same_symm hsame) hfails
                have hknown := hstep.learns hloaded hsame hqfails
                rw [Call.run, loads_known rest hrest hknown]
                simp [hsame]
              · simpa [hsame] using ih hrest _

/-- After any calls, a request is answered as if there were no cache, the paths set aside are
failing ones, and until the cache is cleared each failing path is loaded at most once. -/
theorem answers_as_uncached (scale : Resampler)
    (loader : FilePath → Except PictureError Picture) (halike : LoadsAlike loader)
    (base : FilePath) (capacity : Nat) (calls : List Call) :
    let c := after scale loader (empty base capacity) calls
    (∀ name width height, (c.fetch loader name width height scale).picture =
        uncached scale loader (base.join ⟨name⟩) width height) ∧
      (∀ path ∈ c.failed, Fails loader path) ∧
      ∀ more : List Call, Call.clear ∉ more → ∀ path, Fails loader path →
        (loads scale loader c more).countP (·.same path) ≤ 1 := by
  intro c
  have hc : Faithful scale loader c := after_faithful calls (Faithful.nothing rfl rfl)
  have hbase : c.base = base := after_base calls (empty base capacity)
  refine ⟨?_, hc.failed, ?_⟩
  · intro name width height
    have hanswer := (fetch_outcome scale loader c name width height).answer hc halike
    rw [hanswer, ← hbase]
    rfl
  · intro more hclear path hfails
    exact loads_failing_at_most_once halike more hclear c hfails

/-- Loads one red pixel from every path except those with a certain last component. -/
def loadsAllBut (missing : String) (path : FilePath) : Except PictureError Picture :=
  if path.components.getLast? = some (.name missing) then .error .decodeFailed
  else .ok ⟨1, 1, [⟨#[255, 0, 0, 255], defaultDelay⟩]⟩

theorem loadsAllBut_alike (missing : String) : LoadsAlike (loadsAllBut missing) := by
  intro p q hsame
  simp only [loadsAllBut, FilePath.same_iff.1 hsame]

/-- A cache of one picture that gave up `a.png` for `b.png` answers for `a.png` as before; a
file that is not there is looked for once, by whatever spelling and size. -/
theorem answers_as_uncached_after_giving_up :
    LoadsAlike (loadsAllBut "gone.png") ∧ Fails (loadsAllBut "gone.png") ⟨"/skins/gone.png"⟩ ∧
      let c := after nearestPixel (loadsAllBut "gone.png") (empty ⟨"/skins"⟩ 1)
        [.get "a.png" none none, .get "gone.png" none none, .clear, .get "a.png" (some 2) none,
          .get "b.png" none none]
      (c.fetch (loadsAllBut "gone.png") "a.png" (some 2) none).picture =
          uncached nearestPixel (loadsAllBut "gone.png") ⟨"/skins/a.png"⟩ (some 2) none ∧
        (loads nearestPixel (loadsAllBut "gone.png") c
          [.get "gone.png" none none, .get "./gone.png" (some 3) none]).countP
            (·.same ⟨"/skins/gone.png"⟩) ≤ 1 := by
  have halike := loadsAllBut_alike "gone.png"
  have hfails : Fails (loadsAllBut "gone.png") ⟨"/skins/gone.png"⟩ := by
    intro picture hloads
    have hgone : loadsAllBut "gone.png" ⟨"/skins/gone.png"⟩ = .error .decodeFailed := by decide
    rw [hgone] at hloads
    cases hloads
  refine ⟨halike, hfails, ?_⟩
  intro c
  have hall := answers_as_uncached nearestPixel (loadsAllBut "gone.png") halike ⟨"/skins"⟩ 1
    [.get "a.png" none none, .get "gone.png" none none, .clear, .get "a.png" (some 2) none,
      .get "b.png" none none]
  constructor
  · have hjoin : FilePath.join ⟨"/skins"⟩ ⟨"a.png"⟩ = ⟨"/skins/a.png"⟩ := by decide
    rw [← hjoin]
    exact hall.1 "a.png" (some 2) none
  · exact hall.2.2 _ (by decide) _ hfails

end PanelSkin.PictureCache
