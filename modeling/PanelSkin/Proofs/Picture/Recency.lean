import Mathlib
import PanelSkin.Proofs.Picture.Outcome

/-!
The pictures a cache holds are those used last. The age of an entry is the number of requests
since its last use, which is its place among the answers given so far, latest first. Hence no
two ages are equal, the greatest is that of the use furthest back, and the keys kept are the
first ones of the answers, each counted once.
-/

namespace PanelSkin

section Recency

variable {α : Type} [BEq α] [LawfulBEq α]

/-- The keys among some answers, latest first, each at its last use. -/
def usedLast : List (Option α) → List α
  | [] => []
  | none :: earlier => usedLast earlier
  | some k :: earlier => k :: (usedLast earlier).erase k

theorem mem_usedLast {k : α} {answers : List (Option α)} :
    k ∈ usedLast answers ↔ some k ∈ answers := by
  fun_induction usedLast answers with
  | case1 => simp
  | case2 earlier ih => simp [ih]
  | case3 first earlier ih =>
      by_cases hk : k = first
      · simp [hk]
      · simp [hk, List.mem_erase_of_ne hk, ih]

/-- Keys are in the order of their last uses. -/
theorem usedLast_ordered (answers : List (Option α)) :
    (usedLast answers).Pairwise fun j k =>
      answers.idxOf (some j) < answers.idxOf (some k) := by
  fun_induction usedLast answers with
  | case1 => exact List.Pairwise.nil
  | case2 earlier ih =>
      apply ih.imp
      intro j k hjk
      rw [List.idxOf_cons_ne earlier (by simp), List.idxOf_cons_ne earlier (by simp)]
      omega
  | case3 first earlier ih =>
      have hnodup : (usedLast earlier).Nodup := by
        apply ih.imp
        rintro j k hjk rfl
        omega
      have hbehind : ∀ k ∈ (usedLast earlier).erase first,
          (some first :: earlier).idxOf (some k) = earlier.idxOf (some k) + 1 := by
        intro k hk
        have hne : k ≠ first := (hnodup.mem_erase_iff.1 hk).1
        exact List.idxOf_cons_ne earlier (by simpa using hne.symm)
      apply List.Pairwise.cons
      · intro k hk
        rw [List.idxOf_cons_self, hbehind k hk]
        omega
      · apply (ih.sublist List.erase_sublist).imp_of_mem
        intro j k hj hk hjk
        rw [hbehind j hj, hbehind k hk]
        omega

theorem usedLast_nodup (answers : List (Option α)) : (usedLast answers).Nodup := by
  apply (usedLast_ordered answers).imp
  rintro j k hjk rfl
  omega

/-- Of more than `n` keys, the use of the one behind the first `n` lies further back than theirs. -/
theorem take_usedLast_behind {answers : List (Option α)} {n : Nat}
    (hlength : n < (usedLast answers).length) :
    ∃ last, (usedLast answers).take (n + 1) = (usedLast answers).take n ++ [last] ∧
      ∀ k ∈ (usedLast answers).take n,
        answers.idxOf (some k) < answers.idxOf (some last) := by
  have htake : (usedLast answers).take (n + 1) =
      (usedLast answers).take n ++ [(usedLast answers)[n]] := by
    rw [List.take_add_one, List.getElem?_eq_getElem hlength, Option.toList_some]
  have hordered := (usedLast_ordered answers).sublist (List.take_sublist (n + 1) _)
  rw [htake, List.pairwise_append] at hordered
  refine ⟨_, htake, ?_⟩
  intro k hk
  exact hordered.2.2 k hk _ (List.mem_singleton_self _)

/-- Using a kept key again keeps the same keys. -/
theorem take_usedLast_again {k : α} {answers : List (Option α)} {n : Nat}
    (hk : k ∈ (usedLast answers).take (n + 1)) :
    ((usedLast (some k :: answers)).take (n + 1)).Perm ((usedLast answers).take (n + 1)) := by
  have hrest : ((usedLast answers).erase k).take n = ((usedLast answers).take (n + 1)).erase k := by
    conv_lhs => rw [← List.take_append_drop (n + 1) (usedLast answers)]
    rw [List.erase_append_left _ hk]
    have hlength := List.length_erase_of_mem hk
    rw [List.length_take] at hlength
    rcases Nat.lt_or_ge (usedLast answers).length (n + 1) with hshort | hlong
    · rw [List.drop_of_length_le (by omega), List.append_nil]
      exact List.take_of_length_le (by omega)
    · exact List.take_left' (by omega)
  rw [usedLast, List.take_succ_cons, hrest]
  exact (List.perm_cons_erase hk).symm

/-- A key that is not kept goes in front and pushes the last one out. -/
theorem take_usedLast_new {k : α} {answers : List (Option α)} {n : Nat}
    (hk : k ∉ (usedLast answers).take (n + 1)) :
    (usedLast (some k :: answers)).take (n + 1) = k :: (usedLast answers).take n := by
  rw [usedLast, List.take_succ_cons]
  congr 1
  have hfirst : k ∉ (usedLast answers).take n := by
    intro hmem
    exact hk (List.take_subset_take_left _ (Nat.le_succ n) hmem)
  conv_lhs => rw [← List.take_append_drop n (usedLast answers)]
  rw [List.erase_append_right _ hfirst]
  rcases Nat.lt_or_ge (usedLast answers).length n with hshort | hlong
  · rw [List.drop_of_length_le (by omega), List.erase_nil, List.append_nil]
    exact List.take_of_length_le (by simp)
  · exact List.take_left' (by simp [hlong])

end Recency

/-- What keys are compared by. -/
abbrev PictureIdent := List FilePath.Component × Option Nat × Option Nat

def PictureKey.ident (key : PictureKey) : PictureIdent :=
  (key.path.components, key.width, key.height)

theorem PictureKey.same_iff_ident {k l : PictureKey} : k.same l ↔ k.ident = l.ident := by
  rw [PictureKey.same_iff, FilePath.same_iff]
  simp [ident]

namespace PictureCache

/-- A request, with what loading does at that moment. -/
structure Request where
  loader : FilePath → Except PictureError Picture
  name : String
  width : Option Nat
  height : Option Nat

/-- A cache, and for each request answered so far, latest first, its key if it gave a picture. -/
structure Served where
  cache : PictureCache
  answers : List (Option PictureIdent) := []

/-- The keys of the entries. -/
def kept (c : PictureCache) : List PictureIdent :=
  c.entries.map (·.key.ident)

namespace Request

def key (r : Request) (c : PictureCache) : PictureKey := c.keyOf r.name r.width r.height

def fetch (r : Request) (scale : Resampler) (c : PictureCache) : Fetched :=
  c.fetch r.loader r.name r.width r.height scale

def serve (scale : Resampler) (s : Served) (r : Request) : Served :=
  let fetched := r.fetch scale s.cache
  ⟨fetched.cache, fetched.picture.map (fun _ => (r.key s.cache).ident) :: s.answers⟩

end Request

/-- A cache of `n` pictures whose entries are those used last. -/
structure UpToDate (n : Nat) (s : Served) : Prop where
  capacity : s.cache.capacity = n
  kept : s.cache.kept.Perm ((usedLast s.answers).take n)
  ages : ∀ e ∈ s.cache.entries, e.age = s.answers.idxOf (some e.key.ident)
  counted : s.cache.hits + s.cache.misses = s.answers.length

theorem length_kept (c : PictureCache) : c.kept.length = c.size := List.length_map _

theorem absent_iff {c : PictureCache} {key : PictureKey} :
    c.Absent key ↔ key.ident ∉ c.kept := by
  simp [Absent, kept, PictureKey.same_iff_ident]

theorem kept_touch (c : PictureCache) (key : PictureKey) : (c.touch key).kept = c.kept := by
  simp only [kept, touch, List.map_map]
  rfl

/-- Ages stay places among the answers when one more answer comes in front. -/
theorem UpToDate.ages_touch {n : Nat} {s : Served} (hs : UpToDate n s)
    (hcount : s.answers.length ≤ CacheEntry.oldest) {key : PictureKey}
    {answer : Option PictureIdent}
    (hanswer : ∀ e ∈ s.cache.entries, answer = some e.key.ident ↔ e.key.same key) :
    ∀ e ∈ s.cache.entries.map (aged key),
      e.age = (answer :: s.answers).idxOf (some e.key.ident) := by
  intro e he
  obtain ⟨old, hold, rfl⟩ := List.mem_map.1 he
  rw [aged_key]
  by_cases hsame : old.key.same key
  · rw [(hanswer old hold).2 hsame, List.idxOf_cons_self]
    simp [aged, hsame]
  · have hother : answer ≠ some old.key.ident := fun h => hsame ((hanswer old hold).1 h)
    have hused : some old.key.ident ∈ s.answers := by
      apply mem_usedLast.1
      apply List.mem_of_mem_take
      exact hs.kept.mem_iff.1 (List.mem_map_of_mem hold)
    have hbound := List.idxOf_lt_length_of_mem hused
    rw [List.idxOf_cons_ne _ hother, ← hs.ages old hold]
    rw [← hs.ages old hold] at hbound
    simp only [aged, hsame, Bool.false_eq_true, if_false]
    omega

theorem UpToDate.ages_asked {n : Nat} {s : Served} (hs : UpToDate n s)
    (hcount : s.answers.length ≤ CacheEntry.oldest) (key : PictureKey) :
    ∀ e ∈ s.cache.entries.map (aged key),
      e.age = (some key.ident :: s.answers).idxOf (some e.key.ident) := by
  apply hs.ages_touch hcount
  intro e _
  rw [PictureKey.same_iff_ident, Option.some_inj, eq_comm]

/-- Making room takes away the entry with the last of some keys if all others are younger. -/
theorem evict_last {entries : List CacheEntry} {keys : List PictureIdent} {last : PictureIdent}
    (hkeys : (entries.map (·.key.ident)).Perm (keys ++ [last]))
    (hyounger : ∀ e ∈ entries, ∀ f ∈ entries, e.key.ident ∈ keys → f.key.ident = last →
      e.age < f.age) :
    ((evict entries).map (·.key.ident)).Perm keys := by
  obtain ⟨f, hf, hflast⟩ : ∃ f ∈ entries, f.key.ident = last :=
    List.mem_map.1 (hkeys.mem_iff.2 (by simp))
  obtain ⟨front, oldest, back, hsplit, hevict, holdest⟩ :=
    evict_split (List.ne_nil_of_mem hf)
  have hmem : oldest ∈ entries := by simp [hsplit]
  have hident : oldest.key.ident = last := by
    have hkey := hkeys.mem_iff.1 (List.mem_map_of_mem hmem)
    rcases List.mem_append.1 hkey with hearlier | hlast
    · have hlt := hyounger oldest hmem f hf hearlier hflast
      have hle := holdest f hf
      omega
    · exact List.mem_singleton.1 hlast
  have hmoved : entries.Perm (oldest :: (front ++ back)) := hsplit ▸ List.perm_middle
  have hrest := ((hmoved.map (·.key.ident)).symm.trans hkeys).trans
    (List.perm_append_singleton last keys)
  rw [List.map_cons, hident] at hrest
  rw [hevict]
  exact hrest.cons_inv

/-- The entries that stay when a new one comes are those of the `n` keys used last. -/
theorem UpToDate.room {n : Nat} {s : Served} (hs : UpToDate (n + 1) s) {entries : List CacheEntry}
    (hkept : entries.map (·.key.ident) = s.cache.kept) {answer : Option PictureIdent}
    (hages : ∀ e ∈ entries, e.age = (answer :: s.answers).idxOf (some e.key.ident))
    (hnew : ∀ e ∈ entries, answer ≠ some e.key.ident) :
    ((if s.cache.capacity ≤ entries.length then evict entries else entries).map
      (·.key.ident)).Perm ((usedLast s.answers).take n) := by
  have hkeys := hkept ▸ hs.kept
  have hlength : entries.length = min (n + 1) (usedLast s.answers).length := by
    simpa using hkeys.length_eq
  rw [hs.capacity]
  split
  · next hfull =>
    obtain ⟨last, htake, hbehind⟩ := @take_usedLast_behind _ _ _ s.answers n (by omega)
    rw [htake] at hkeys
    apply evict_last hkeys
    intro e he f hf hekey hflast
    have hlt := hbehind e.key.ident hekey
    rw [hages e he, hages f hf, List.idxOf_cons_ne _ (hnew e he),
      List.idxOf_cons_ne _ (hnew f hf), hflast]
    omega
  · next hroom =>
    rw [List.take_of_length_le (by omega)] at hkeys ⊢
    exact hkeys

/-- A request without a picture changes no place but makes every entry older. -/
theorem UpToDate.missed {n : Nat} {s : Served} (hs : UpToDate n s)
    (hcount : s.answers.length ≤ CacheEntry.oldest) {key : PictureKey}
    (habsent : s.cache.Absent key) : UpToDate n ⟨s.cache.missed key, none :: s.answers⟩ where
  capacity := hs.capacity
  kept := by
    change (s.cache.touch key).kept.Perm ((usedLast s.answers).take n)
    rw [kept_touch]
    exact hs.kept
  ages := by
    apply hs.ages_touch hcount
    intro e he
    simp [habsent e he]
  counted := by
    have hcounted := hs.counted
    simp only [PictureCache.missed, touch, List.length_cons]
    omega

/-- Every way of answering a request leaves a cache with the pictures used last. -/
theorem Outcome.upToDate {scale : Resampler} {loader : FilePath → Except PictureError Picture}
    {n : Nat} {s : Served} {key : PictureKey} {r : Fetched}
    (h : Outcome scale loader s.cache key r) (hs : UpToDate (n + 1) s)
    (hcount : s.answers.length ≤ CacheEntry.oldest) :
    UpToDate (n + 1) ⟨r.cache, r.picture.map (fun _ => key.ident) :: s.answers⟩ := by
  have hkept := kept_touch s.cache key
  cases h with
  | hit entry hentry hsame =>
      have hages := hs.ages_asked hcount key
      have hused : key.ident ∈ (usedLast s.answers).take (n + 1) := by
        apply hs.kept.mem_iff.1
        exact List.mem_map.2 ⟨entry, hentry, PictureKey.same_iff_ident.1 hsame⟩
      have hcounted := hs.counted
      refine ⟨hs.capacity, ?_, hages, ?_⟩
      · change (s.cache.touch key).kept.Perm _
        rw [hkept]
        exact hs.kept.trans (take_usedLast_again hused).symm
      · simp only [touch, List.length_cons]
        omega
  | refused habsent hknown => exact hs.missed hcount habsent
  | failing habsent hunknown hfails =>
      have hmissed := hs.missed hcount habsent
      exact ⟨hmissed.capacity, hmissed.kept, hmissed.ages, hmissed.counted⟩
  | loaded habsent hunknown picture hloads hframes =>
      have hages := hs.ages_asked hcount key
      have hnew : key.ident ∉ (usedLast s.answers).take (n + 1) := by
        rw [← hs.kept.mem_iff]
        exact absent_iff.1 habsent
      have hroom := hs.room hkept hages (by
        intro e he hsame
        apply absent_iff.1 habsent
        rw [← hkept, Option.some_inj.1 hsame]
        exact List.mem_map_of_mem he)
      refine ⟨hs.capacity, ?_, ?_, ?_⟩
      · rw [Option.map_some, take_usedLast_new hnew]
        simp only [kept, keep, missed_entries, missed_capacity, List.map_append, List.map_cons,
          List.map_nil]
        exact (List.perm_append_singleton _ _).trans (hroom.cons _)
      · intro e he
        rcases mem_keep he with hold | rfl
        · exact hages e hold
        · exact List.idxOf_cons_self.symm
      · have hcounted := hs.counted
        simp only [keep, missed, touch, List.length_cons]
        omega

theorem Request.serve_upToDate (scale : Resampler) (r : Request) {n : Nat} {s : Served}
    (hs : UpToDate (n + 1) s) (hcount : s.answers.length ≤ CacheEntry.oldest) :
    UpToDate (n + 1) (r.serve scale s) :=
  (fetch_outcome scale r.loader s.cache r.name r.width r.height).upToDate hs hcount

theorem serve_all_upToDate (scale : Resampler) (requests : List Request) {n : Nat} {s : Served}
    (hs : UpToDate (n + 1) s)
    (hcount : s.answers.length + requests.length ≤ CacheEntry.oldest) :
    UpToDate (n + 1) (requests.foldl (Request.serve scale) s) ∧
      (requests.foldl (Request.serve scale) s).answers.length =
        s.answers.length + requests.length := by
  induction requests generalizing s with
  | nil => exact ⟨hs, rfl⟩
  | cons r rest ih =>
      rw [List.length_cons] at hcount
      have hlength : (r.serve scale s).answers.length = s.answers.length + 1 := rfl
      have hrest := ih (r.serve_upToDate scale hs (by omega)) (by omega)
      refine ⟨hrest.1, ?_⟩
      rw [List.foldl_cons, hrest.2, List.length_cons]
      omega

theorem upToDate_empty (base : FilePath) (capacity : Nat) :
    UpToDate (max capacity 1) ⟨empty base capacity, []⟩ := by
  constructor
  · rfl
  · simp [kept, empty, usedLast]
  · simp [empty]
  · rfl

theorem contains_iff {c : PictureCache} {r : Request} :
    c.contains r.name r.width r.height ↔ (r.key c).ident ∈ c.kept := by
  simp [contains, find?, kept, Request.key, PictureKey.same_iff_ident]

/-- A full cache takes a new picture in place of the one whose last use lies furthest back. -/
theorem UpToDate.replaced {n : Nat} {s : Served} (hs : UpToDate (n + 1) s)
    (hcount : s.answers.length ≤ CacheEntry.oldest) (scale : Resampler) (r : Request)
    (hfull : s.cache.size = n + 1) (hnew : s.cache.contains r.name r.width r.height = false)
    (hpicture : (r.fetch scale s.cache).picture.isSome) :
    ∃ furthest ∈ s.cache.kept,
      (∀ k ∈ s.cache.kept, k ≠ furthest →
        s.answers.idxOf (some k) < s.answers.idxOf (some furthest)) ∧
      (r.serve scale s).cache.kept.Perm
        ((r.key s.cache).ident :: s.cache.kept.erase furthest) := by
  have hlength : n + 1 = min (n + 1) (usedLast s.answers).length := by
    rw [← List.length_take, ← hs.kept.length_eq, length_kept, hfull]
  obtain ⟨furthest, htake, hbehind⟩ := @take_usedLast_behind _ _ _ s.answers n (by omega)
  have hkept := (htake ▸ hs.kept).trans (List.perm_append_singleton _ _)
  refine ⟨furthest, hkept.mem_iff.2 List.mem_cons_self, ?_, ?_⟩
  · intro k hk hne
    apply hbehind
    simpa [hne] using hkept.mem_iff.1 hk
  · have hnext := (r.serve_upToDate scale hs hcount).kept
    obtain ⟨picture, hpicture⟩ := Option.isSome_iff_exists.1 hpicture
    have hanswers : (r.serve scale s).answers = some (r.key s.cache).ident :: s.answers := by
      simp [Request.serve, hpicture]
    have habsent : (r.key s.cache).ident ∉ (usedLast s.answers).take (n + 1) := by
      rw [← hs.kept.mem_iff, ← contains_iff, hnew]
      simp
    rw [hanswers, take_usedLast_new habsent] at hnext
    have herased := hkept.erase furthest
    rw [List.erase_cons_head] at herased
    exact hnext.trans (herased.symm.cons _)

/-- After fewer than 2³² requests the keys kept are those used last, as many as there is room
for; a request whose picture is new to a full cache takes the place of the key whose last use
lies furthest back. -/
theorem keeps_used_last (scale : Resampler) (base : FilePath) (capacity : Nat)
    (requests : List Request) (hcount : requests.length < 2 ^ 32) :
    let s := requests.foldl (Request.serve scale) ⟨empty base capacity, []⟩
    s.cache.kept.Perm ((usedLast s.answers).take (max capacity 1)) ∧
      s.cache.kept.Nodup ∧
      s.cache.size ≤ max capacity 1 ∧
      s.cache.hits + s.cache.misses = requests.length ∧
      ∀ r : Request, s.cache.size = max capacity 1 →
        s.cache.contains r.name r.width r.height = false →
        (r.fetch scale s.cache).picture.isSome →
        ∃ furthest ∈ s.cache.kept,
          (∀ k ∈ s.cache.kept, k ≠ furthest →
            s.answers.idxOf (some k) < s.answers.idxOf (some furthest)) ∧
          (r.serve scale s).cache.kept.Perm
            ((r.key s.cache).ident :: s.cache.kept.erase furthest) := by
  intro s
  obtain ⟨n, hn⟩ : ∃ n, max capacity 1 = n + 1 := ⟨max capacity 1 - 1, by omega⟩
  have hempty := upToDate_empty base capacity
  rw [hn] at hempty ⊢
  have hbound : requests.length ≤ CacheEntry.oldest := Nat.le_of_lt_succ hcount
  obtain ⟨hs, hlength⟩ := serve_all_upToDate scale requests hempty (by simpa using hbound)
  rw [List.length_nil, Nat.zero_add] at hlength
  refine ⟨hs.kept, ?_, ?_, ?_, ?_⟩
  · exact hs.kept.nodup_iff.2 (usedLast_nodup s.answers).take
  · rw [← length_kept, hs.kept.length_eq]
    exact List.length_take_le _ _
  · exact hs.counted.trans hlength
  · intro r hfull hnew hpicture
    exact hs.replaced (hlength ▸ hbound) scale r hfull hnew hpicture

/-- A request for a black pixel. -/
def Request.pixel (name : String) : Request :=
  ⟨fun _ => .ok ⟨1, 1, [⟨#[0, 0, 0, 255], defaultDelay⟩]⟩, name, none, none⟩

/-- A request for a picture that does not load. -/
def Request.broken (name : String) : Request :=
  ⟨fun _ => .error .decodeFailed, name, none, none⟩

/-- Of two pictures, the one not asked for again goes when a third one comes. -/
theorem keeps_used_last_of_three :
    let requests := [Request.pixel "a", .pixel "b", .broken "x", .pixel "./a"]
    let s := requests.foldl (Request.serve nearestPixel) ⟨empty ⟨"/"⟩ 2, []⟩
    requests.length < 2 ^ 32 ∧ s.cache.size = 2 ∧ s.cache.hits + s.cache.misses = 4 ∧
      ∃ furthest ∈ s.cache.kept,
        (∀ k ∈ s.cache.kept, k ≠ furthest →
          s.answers.idxOf (some k) < s.answers.idxOf (some furthest)) ∧
        ((Request.pixel "c").serve nearestPixel s).cache.kept.Perm
          (((Request.pixel "c").key s.cache).ident :: s.cache.kept.erase furthest) := by
  intro requests s
  have hall := keeps_used_last nearestPixel ⟨"/"⟩ 2 requests (by decide)
  obtain ⟨-, -, -, hcounted, hreplaced⟩ := hall
  have hsize : s.cache.size = 2 := by decide
  have hnew : s.cache.contains "c" none none = false := by decide
  have hpicture : ((Request.pixel "c").fetch nearestPixel s.cache).picture.isSome := by decide
  exact ⟨by decide, hsize, hcounted, hreplaced (.pixel "c") hsize hnew hpicture⟩

end PictureCache

end PanelSkin
