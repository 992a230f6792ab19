import Mathlib.Order.MinMax
import PanelSkin.Picture.Cache

/-!
What one request for a picture can do: find an entry, be refused because the path is known not
to load, fail to load, or load. Everything said of whole runs goes through these four cases and
through what making room takes away.
-/

namespace PanelSkin

/-- A path that does not load, or loads without frames. -/
def Fails (loader : FilePath → Except PictureError Picture) (path : FilePath) : Prop :=
  ∀ picture, loader path = .ok picture → picture.frames = []

theorem FilePath.same_iff {p q : FilePath} : p.same q ↔ p.components = q.components := by
  simp [same]

theorem FilePath.same_symm {p q : FilePath} (h : p.same q) : q.same p :=
  same_iff.2 (same_iff.1 h).symm

theorem FilePath.same_trans {p q r : FilePath} (hpq : p.same q) (hqr : q.same r) : p.same r :=
  same_iff.2 ((same_iff.1 hpq).trans (same_iff.1 hqr))

theorem PictureKey.same_iff {k l : PictureKey} :
    k.same l ↔ k.path.same l.path ∧ k.width = l.width ∧ k.height = l.height := by
  simp [same, and_assoc]

namespace PictureCache

variable {scale : Resampler} {loader : FilePath → Except PictureError Picture}

/-- The cache after a request whose picture is not there, before anything is loaded. -/
def missed (c : PictureCache) (key : PictureKey) : PictureCache :=
  { c.touch key with misses := c.misses + 1 }

/-- No entry answers a request. -/
def Absent (c : PictureCache) (key : PictureKey) : Prop :=
  ∀ e ∈ c.entries, ¬ e.key.same key

theorem failedBefore_iff {c : PictureCache} {path : FilePath} :
    c.failedBefore path ↔ ∃ q ∈ c.failed, q.same path :=
  List.any_eq_true

/-- The ways in which a request for a key is answered. -/
inductive Outcome (scale : Resampler) (loader : FilePath → Except PictureError Picture)
    (c : PictureCache) (key : PictureKey) : Fetched → Prop where
  | hit (entry : CacheEntry) (hentry : entry ∈ c.entries) (hsame : entry.key.same key) :
      Outcome scale loader c key
        ⟨some entry.picture, none, { c.touch key with hits := c.hits + 1 }⟩
  | refused (habsent : c.Absent key) (hknown : c.failedBefore key.path) :
      Outcome scale loader c key ⟨none, none, c.missed key⟩
  | failing (habsent : c.Absent key) (hunknown : ¬ c.failedBefore key.path)
      (hfails : Fails loader key.path) :
      Outcome scale loader c key ⟨none, some key.path, (c.missed key).fail key.path⟩
  | loaded (habsent : c.Absent key) (hunknown : ¬ c.failedBefore key.path)
      (picture : Picture) (hloads : loader key.path = .ok picture)
      (hframes : picture.frames ≠ []) :
      Outcome scale loader c key
        ⟨some (scaled scale picture key.width key.height), some key.path,
          (c.missed key).keep key (scaled scale picture key.width key.height)⟩

theorem load_outcome (c : PictureCache) (key : PictureKey) (habsent : c.Absent key)
    (hunknown : ¬ c.failedBefore key.path) :
    Outcome scale loader c key ((c.missed key).load scale loader key) := by
  unfold load
  cases hloads : loader key.path with
  | error cause =>
      apply Outcome.failing habsent hunknown
      intro picture hok
      simp [hloads] at hok
  | ok picture =>
      by_cases hframes : picture.frames = []
      · simp only [hframes, List.isEmpty_nil, if_true]
        apply Outcome.failing habsent hunknown
        intro other hok
        obtain rfl : picture = other := by simpa [hloads] using hok
        exact hframes
      · have hempty : picture.frames.isEmpty = false := by simpa using hframes
        simp only [hempty, Bool.false_eq_true, if_false]
        exact Outcome.loaded habsent hunknown picture hloads hframes

theorem fetch_outcome (scale : Resampler) (loader : FilePath → Except PictureError Picture)
    (c : PictureCache) (name : String) (width height : Option Nat) :
    Outcome scale loader c (c.keyOf name width height)
      (c.fetch loader name width height scale) := by
  cases hfind : c.find? (c.keyOf name width height) with
  | some entry =>
      have hsame := List.find?_some hfind
      have hentry := List.mem_of_find?_eq_some hfind
      simp only [fetch, hfind]
      exact Outcome.hit entry hentry hsame
  | none =>
      have habsent : c.Absent (c.keyOf name width height) := by
        simpa [find?, Absent] using hfind
      by_cases hknown : c.failedBefore (c.keyOf name width height).path
      · simp only [fetch, hfind, hknown, if_true]
        exact Outcome.refused habsent hknown
      · simp only [fetch, hfind, hknown, Bool.false_eq_true, if_false]
        exact load_outcome c _ habsent hknown

@[simp] theorem missed_entries (c : PictureCache) (key : PictureKey) :
    (c.missed key).entries = c.entries.map (aged key) := rfl

@[simp] theorem missed_capacity (c : PictureCache) (key : PictureKey) :
    (c.missed key).capacity = c.capacity := rfl

@[simp] theorem aged_key (key : PictureKey) (e : CacheEntry) : (aged key e).key = e.key := rfl

/-- A request never changes where relative paths start. -/
theorem Outcome.base {c : PictureCache} {key : PictureKey} {r : Fetched}
    (h : Outcome scale loader c key r) : r.cache.base = c.base := by
  cases h <;> rfl

/-- Counting up from `n`: the result is not below `n` or any age, and is one of them. -/
private theorem foldl_age (entries : List CacheEntry) (n : Nat) :
    let greatest := entries.foldl (fun n e => max n e.age) n
    n ≤ greatest ∧ (∀ e ∈ entries, e.age ≤ greatest) ∧
      (greatest = n ∨ ∃ e ∈ entries, e.age = greatest) := by
  induction entries generalizing n with
  | nil => simp
  | cons first rest ih =>
      obtain ⟨hstart, hrest, hattained⟩ := ih (max n first.age)
      refine ⟨le_trans (le_max_left n first.age) hstart, ?_, ?_⟩
      · rintro e (_ | ⟨_, he⟩)
        · exact le_trans (le_max_right n first.age) hstart
        · exact hrest e he
      · rcases hattained with hkept | ⟨e, he, hage⟩
        · rcases max_choice n first.age with hmax | hmax
          · exact Or.inl (hkept.trans hmax)
          · exact Or.inr ⟨first, List.mem_cons_self, (hkept.trans hmax).symm⟩
        · exact Or.inr ⟨e, List.mem_cons_of_mem _ he, hage⟩

theorem le_greatestAge {entries : List CacheEntry} {e : CacheEntry} (he : e ∈ entries) :
    e.age ≤ greatestAge entries :=
  (foldl_age entries 0).2.1 e he

theorem exists_age_eq_greatestAge {entries : List CacheEntry} (hne : entries ≠ []) :
    ∃ e ∈ entries, e.age = greatestAge entries := by
  rcases (foldl_age entries 0).2.2 with hzero | hattained
  · obtain ⟨e, he⟩ := List.exists_mem_of_ne_nil entries hne
    have hle := le_greatestAge he
    have hnone : greatestAge entries = 0 := hzero
    exact ⟨e, he, by omega⟩
  · exact hattained

/-- Making room takes one entry away, and none is older than it. -/
theorem evict_split {entries : List CacheEntry} (hne : entries ≠ []) :
    ∃ front oldest back, entries = front ++ oldest :: back ∧
      evict entries = front ++ back ∧ ∀ e ∈ entries, e.age ≤ oldest.age := by
  obtain ⟨e, he, hage⟩ := exists_age_eq_greatestAge hne
  obtain ⟨oldest, front, back, -, holdest, hsplit, herase⟩ :=
    @List.exists_of_eraseP _ (·.age == greatestAge entries) _ e he (by simpa using hage)
  refine ⟨front, oldest, back, hsplit, herase, ?_⟩
  intro x hx
  have hgreatest : oldest.age = greatestAge entries := by simpa using holdest
  exact hgreatest ▸ le_greatestAge hx

/-- An entry after a picture was kept is the new one or was there before. -/
theorem mem_keep {c : PictureCache} {key : PictureKey} {picture : Picture} {e : CacheEntry}
    (he : e ∈ (c.keep key picture).entries) :
    e ∈ c.entries ∨ e = { key, picture } := by
  simp only [keep, List.mem_append, List.mem_singleton] at he
  rcases he with hold | rfl
  · left
    split at hold
    · exact List.eraseP_subset hold
    · exact hold
  · exact Or.inr rfl

end PictureCache

end PanelSkin
