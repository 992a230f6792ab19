import Mathlib.Data.List.TakeWhile
import PanelSkin.Font.Spec
import PanelSkin.Proofs.Text.Blank

/-!
The urls of fonts. A path is what stands between the first colon and the end or the last colon, so
it may have colons in it. A pattern is what is left of its url without the parts that give a size:
it comes back whole from wherever the size stands among its parts, as long as none of these looks
like a size itself. And what is read from any text has such a url.
-/

namespace PanelSkin

/-- The pieces of a text that is cut at a character do not have it. -/
theorem not_mem_of_mem_splitOn {x : Char} {text piece : List Char} (h : piece ∈ text.splitOn x) :
    x ∉ piece := by
  induction text generalizing piece with
  | nil =>
      obtain rfl : piece = [] := by simpa using h
      exact List.not_mem_nil
  | cons c rest ih =>
      rw [List.splitOn_cons_eq_if_modifyHead] at h
      obtain ⟨first, others, hpieces⟩ := List.exists_cons_of_ne_nil (List.splitOn_ne_nil x rest)
      rw [hpieces] at h ih
      split at h
      · rcases List.mem_cons.mp h with rfl | hrest
        · exact List.not_mem_nil
        · exact ih hrest
      · rename_i hc
        rcases List.mem_cons.mp h with rfl | hothers
        · rw [List.mem_cons, not_or]
          exact ⟨fun hsame => hc (by simp [hsame]), ih List.mem_cons_self⟩
        · exact ih (List.mem_cons_of_mem _ hothers)

namespace FontSpec

/-- The specs of fonts: there is a path or a pattern, no part of a pattern starts like a size, and
the size is a word of 32 bits that is not zero. -/
def IsValid : FontSpec → Prop
  | .bitmap path => path ≠ ""
  | .outline path size => path ≠ "" ∧ 1 ≤ size ∧ size < 2 ^ 32
  | .pattern text size =>
    text ≠ "" ∧ (∀ part ∈ text.toList.splitOn ':', ¬ "size=".toList <+: part) ∧
      1 ≤ size ∧ size < 2 ^ 32

/-- The urls of a spec. The size of a pattern stands behind it, or anywhere among its parts. -/
inductive HasUrl : FontSpec → String → Prop where
  | bitmap (path : String) : HasUrl (.bitmap path) ("fnt:" ++ path)
  | outline (path : String) (size : Nat) :
      HasUrl (.outline path size) ("ft2:" ++ path ++ ":" ++ toString size)
  | pattern (text : String) (size : Nat) :
      HasUrl (.pattern text size) ("fc:" ++ text ++ ":size=" ++ toString size)
  | patternAround (text : String) (size : Nat) (before after : List (List Char))
      (hparts : text.toList.splitOn ':' = before ++ after) :
      HasUrl (.pattern text size) ("fc:" ++ String.ofList
        ([':'].intercalate (before ++ ("size=" ++ toString size).toList :: after)))

/-! Where a text is cut at a colon. -/

theorem eq_colon_of_dropWhile {s after : List Char} {c : Char}
    (h : s.dropWhile (· != ':') = c :: after) : c = ':' := by
  have hstop := List.head?_dropWhile_not (· != ':') s
  rw [h] at hstop
  simpa using hstop

/-- The first colon is the one that has none before it. -/
theorem cut_at_first_colon {s before after : List Char} :
    s.takeWhile (· != ':') = before ∧ s.dropWhile (· != ':') = ':' :: after ↔
      s = before ++ ':' :: after ∧ ':' ∉ before := by
  constructor
  · rintro ⟨rfl, hafter⟩
    refine ⟨?_, fun hmem => ?_⟩
    · rw [← hafter, List.takeWhile_append_dropWhile]
    · exact absurd (List.mem_takeWhile_imp hmem) (by simp)
  · rintro ⟨rfl, hplain⟩
    have hpass : ∀ c ∈ before, (c != ':') = true := by
      intro c hc
      rw [bne_iff_ne]
      rintro rfl
      exact hplain hc
    rw [List.takeWhile_append_of_pos hpass, List.dropWhile_append_of_pos hpass]
    simp

theorem splitAtLastColon_eq_some_iff {s before after : List Char} :
    splitAtLastColon s = some (before, after) ↔ s = before ++ ':' :: after ∧ ':' ∉ after := by
  -- the last colon is the first one of the reversed text
  have hfirst := @cut_at_first_colon s.reverse after.reverse before.reverse
  have hcut : s.reverse = after.reverse ++ ':' :: before.reverse ↔ s = before ++ ':' :: after := by
    rw [← List.reverse_inj]
    simp
  rw [hcut, List.mem_reverse] at hfirst
  rw [← hfirst]
  unfold splitAtLastColon
  constructor
  · intro h
    split at h
    · cases h
    · rename_i c rest hrest
      obtain rfl := eq_colon_of_dropWhile hrest
      cases h
      exact ⟨by simp, by simpa using hrest⟩
  · rintro ⟨hafter, hbefore⟩
    rw [hbefore, hafter]
    simp

theorem parse_eq_ok_iff {url : String} {spec : FontSpec} :
    parse url = .ok spec ↔ ∃ kind rest, url.toList = kind ++ ':' :: rest ∧ ':' ∉ kind ∧
      readRest kind rest = some spec := by
  unfold parse
  dsimp only
  constructor
  · intro h
    split at h
    · rename_i found hread
      cases h
      split at hread
      · cases hread
      · rename_i c rest hrest
        obtain rfl := eq_colon_of_dropWhile hrest
        obtain ⟨hurl, hkind⟩ := cut_at_first_colon.mp ⟨rfl, hrest⟩
        exact ⟨_, rest, hurl, hkind, hread⟩
    · cases h
  · rintro ⟨kind, rest, hurl, hkind, hread⟩
    obtain ⟨htake, hdrop⟩ := cut_at_first_colon.mpr ⟨hurl, hkind⟩
    rw [htake, hdrop]
    dsimp only
    rw [hread]

/-! Paths and sizes. -/

theorem lt_of_readNat32 {s : List Char} {size : Nat} (h : Text.readNat32 s = some size) :
    size < 2 ^ 32 := by
  obtain ⟨-, -, -, -, -, hrange⟩ := (Text.readUnsigned_eq_some_iff (by decide)).mp h
  exact hrange

theorem readNat32_digits {size : Nat} (h : size < 2 ^ 32) :
    Text.readNat32 (Text.trim (toString size).toList) = some size := by
  have hplain : ∀ c ∈ Nat.toDigits 10 size, Text.isBlank c = false := by
    intro c hc
    apply Text.isBlank_of_isAlphanum
    simp [Char.isAlphanum, Text.isDigit_of_mem_toDigits hc]
  rw [Nat.toString_eq_repr, Nat.toList_repr, Text.trim_of_forall hplain]
  exact Text.readUnsigned_toDigits h

theorem colon_not_mem_digits (size : Nat) : ':' ∉ (toString size).toList := by
  rw [Nat.toString_eq_repr, Nat.toList_repr]
  exact fun hmem => Bool.false_ne_true (Text.isDigit_of_mem_toDigits hmem)

theorem readOutline_eq_some_iff {rest : List Char} {spec : FontSpec} :
    readOutline rest = some spec ↔ ∃ path text size, rest = path ++ ':' :: text ∧ ':' ∉ text ∧
      Text.readNat32 (Text.trim text) = some size ∧ 1 ≤ size ∧ path ≠ [] ∧
      spec = .outline (String.ofList path) size := by
  unfold readOutline readSize
  simp only [Option.bind_eq_bind, Option.bind_eq_some_iff, Prod.exists,
    splitAtLastColon_eq_some_iff, Option.filter_eq_some_iff, Option.ite_none_left_eq_some,
    List.isEmpty_iff, Option.some.injEq, decide_eq_true_eq]
  constructor
  · rintro ⟨path, text, ⟨hrest, htext⟩, size, ⟨hsize, hpos⟩, hpath, hspec⟩
    exact ⟨path, text, size, hrest, htext, hsize, hpos, hpath, hspec.symm⟩
  · rintro ⟨path, text, size, hrest, htext, hsize, hpos, hpath, hspec⟩
    exact ⟨path, text, ⟨hrest, htext⟩, size, ⟨hsize, hpos⟩, hpath, hspec.symm⟩

/-! Patterns and sizes. -/

theorem sizeText?_eq_none_iff {part : List Char} :
    sizeText? part = none ↔ ¬ "size=".toList <+: part := by
  unfold sizeText?
  rw [ite_eq_right_iff, List.isPrefixOf_iff_prefix]
  simp [sizeLead]

theorem sizeText?_size (size : Nat) :
    sizeText? ("size=" ++ toString size).toList = some (toString size).toList := by
  rw [String.toList_append]
  exact if_pos (List.isPrefixOf_iff_prefix.mpr (List.prefix_append _ _))

theorem colon_not_mem_size (size : Nat) : ':' ∉ ("size=" ++ toString size).toList := by
  rw [String.toList_append, List.mem_append, not_or]
  exact ⟨by decide, colon_not_mem_digits size⟩

theorem exists_of_mem_mapM {α β : Type} {f : α → Option β} {as : List α} {bs : List β}
    (h : as.mapM f = some bs) {b : β} (hb : b ∈ bs) : ∃ a ∈ as, f a = some b := by
  induction as generalizing bs with
  | nil =>
      cases h
      cases hb
  | cons a as ih =>
      rw [List.mapM_cons] at h
      obtain ⟨first, hfirst, h⟩ := Option.bind_eq_some_iff.mp h
      obtain ⟨rest, hrest, h⟩ := Option.bind_eq_some_iff.mp h
      cases h
      rcases List.mem_cons.mp hb with rfl | hb
      · exact ⟨a, List.mem_cons_self, hfirst⟩
      · obtain ⟨other, hother, hvalue⟩ := ih hrest hb
        exact ⟨other, List.mem_cons_of_mem a hother, hvalue⟩

/-- Around a part with a size there are the parts of the pattern. -/
theorem readPattern_around {before after : List (List Char)} {part text : List Char} {size : Nat}
    (hplain : ∀ p ∈ before ++ after, ':' ∉ p) (hlead : ∀ p ∈ before ++ after, sizeText? p = none)
    (hpart : ':' ∉ part) (htext : sizeText? part = some text)
    (hsize : Text.readNat32 (Text.trim text) = some size) (hpos : 1 ≤ size)
    (hsome : [':'].intercalate (before ++ after) ≠ []) :
    readPattern ([':'].intercalate (before ++ part :: after)) =
      some (.pattern (String.ofList ([':'].intercalate (before ++ after))) size) := by
  rw [List.forall_mem_append] at hplain hlead
  have hparts : ([':'].intercalate (before ++ part :: after)).splitOn ':' =
      before ++ part :: after := by
    refine List.splitOn_intercalate ':' ?_ (by simp)
    exact List.forall_mem_append.mpr ⟨hplain.1, List.forall_mem_cons.mpr ⟨hpart, hplain.2⟩⟩
  have hsizes : (before ++ part :: after).filterMap sizeText? = [text] := by
    rw [List.filterMap_append, List.filterMap_cons_some htext,
      List.filterMap_eq_nil_iff.mpr hlead.1, List.filterMap_eq_nil_iff.mpr hlead.2, List.nil_append]
  have hrest : (before ++ part :: after).filter (fun p => (sizeText? p).isNone) =
      before ++ after := by
    rw [List.filter_append, List.filter_cons_of_neg (by simp [htext]),
      List.filter_eq_self.mpr fun p hp => by simp [hlead.1 p hp],
      List.filter_eq_self.mpr fun p hp => by simp [hlead.2 p hp]]
  have hsize' : (some size).filter (0 < ·) = some size := if_pos (decide_eq_true hpos)
  have hone : [text].mapM (fun s => Text.readNat32 (Text.trim s)) = some [size] := by
    simp [hsize]
  unfold readPattern
  dsimp only
  rw [hparts, hsizes, hrest, hone, Option.bind_eq_bind, Option.bind_some, List.getLast?_singleton,
    hsize', Option.bind_eq_bind, Option.bind_some, if_neg (by simpa using hsome)]

/-- What is read of a pattern are parts that look like no size, and a size. -/
theorem exists_parts_of_readPattern {rest : List Char} {spec : FontSpec}
    (h : readPattern rest = some spec) : ∃ parts size, parts ≠ [] ∧
      (∀ part ∈ parts, ':' ∉ part ∧ ¬ "size=".toList <+: part) ∧
      [':'].intercalate parts ≠ [] ∧ 1 ≤ size ∧ size < 2 ^ 32 ∧
      spec = .pattern (String.ofList ([':'].intercalate parts)) size := by
  unfold readPattern at h
  dsimp only at h
  obtain ⟨sizes, hsizes, h⟩ := Option.bind_eq_some_iff.mp h
  obtain ⟨size, hlast, h⟩ := Option.bind_eq_some_iff.mp h
  obtain ⟨hlast, hpos⟩ := Option.filter_eq_some_iff.mp hlast
  obtain ⟨text, -, htext⟩ := exists_of_mem_mapM hsizes (List.mem_of_getLast? hlast)
  obtain ⟨hsome, h⟩ := Option.ite_none_left_eq_some.mp h
  rw [List.isEmpty_iff] at hsome
  refine ⟨_, size, ?_, fun part hpart => ?_, hsome, of_decide_eq_true hpos, lt_of_readNat32 htext,
    (Option.some.inj h).symm⟩
  · intro hnil
    rw [hnil] at hsome
    exact hsome rfl
  · obtain ⟨hmem, hnone⟩ := List.mem_filter.mp hpart
    exact ⟨not_mem_of_mem_splitOn hmem,
      sizeText?_eq_none_iff.mp (Option.isNone_iff_eq_none.mp hnone)⟩

/-! Specs and their urls. -/

theorem parse_of_toList {url : String} (kind : List Char) {rest : List Char} {spec : FontSpec}
    (hurl : url.toList = kind ++ ':' :: rest) (hkind : ':' ∉ kind)
    (hread : readRest kind rest = some spec) : parse url = .ok spec :=
  parse_eq_ok_iff.mpr ⟨kind, rest, hurl, hkind, hread⟩

theorem parse_around {text : String} {size : Nat} (hvalid : (FontSpec.pattern text size).IsValid)
    {before after : List (List Char)} (hparts : text.toList.splitOn ':' = before ++ after) :
    parse ("fc:" ++ String.ofList
      ([':'].intercalate (before ++ ("size=" ++ toString size).toList :: after))) =
      .ok (.pattern text size) := by
  obtain ⟨hsome, hlead, hpos, hrange⟩ := hvalid
  have htext : [':'].intercalate (before ++ after) = text.toList := by
    rw [← hparts, List.intercalate_splitOn]
  have hplain : ∀ p ∈ before ++ after, ':' ∉ p := fun p hp => not_mem_of_mem_splitOn (hparts ▸ hp)
  have hnone : ∀ p ∈ before ++ after, sizeText? p = none :=
    fun p hp => sizeText?_eq_none_iff.mpr (hlead p (hparts ▸ hp))
  have hread := readPattern_around hplain hnone (colon_not_mem_size size) (sizeText?_size size)
    (readNat32_digits hrange) hpos (by simpa [htext] using hsome)
  rw [htext, String.ofList_toList] at hread
  apply parse_of_toList "fc".toList _ (by decide) hread
  simp

/-- Behind a pattern the size stands as the last part. -/
theorem url_eq_around (text : String) (size : Nat) :
    "fc:" ++ text ++ ":size=" ++ toString size = "fc:" ++ String.ofList
      ([':'].intercalate (text.toList.splitOn ':' ++ [("size=" ++ toString size).toList])) := by
  have hlast : [':'].intercalate
      (text.toList.splitOn ':' ++ [("size=" ++ toString size).toList]) =
        text.toList ++ ':' :: ("size=" ++ toString size).toList := by
    rw [← List.splitOn_eq_singleton (colon_not_mem_size size), ← List.splitOn_append_cons_self,
      List.intercalate_splitOn]
  rw [hlast, ← String.toList_inj]
  simp

theorem parse_url {spec : FontSpec} (hvalid : spec.IsValid) {url : String}
    (hurl : spec.HasUrl url) : parse url = .ok spec := by
  cases hurl with
  | bitmap path =>
      have hread : readRest "fnt".toList path.toList = some (.bitmap path) := by
        have hsome : path.toList.isEmpty ≠ true := by simpa [IsValid] using hvalid
        rw [readRest, if_pos rfl, if_neg hsome, String.ofList_toList]
      apply parse_of_toList "fnt".toList _ (by decide) hread
      simp
  | outline path size =>
      obtain ⟨hpath, hpos, hrange⟩ := hvalid
      have hread : readOutline (path.toList ++ ':' :: (toString size).toList) =
          some (.outline path size) := by
        refine readOutline_eq_some_iff.mpr ⟨path.toList, (toString size).toList, size, rfl,
          colon_not_mem_digits size, readNat32_digits hrange, hpos, by simpa using hpath, ?_⟩
        rw [String.ofList_toList]
      apply parse_of_toList "ft2".toList _ (by decide) hread
      simp
  | pattern text size =>
      rw [url_eq_around]
      exact parse_around hvalid (List.append_nil _).symm
  | patternAround text size before after hparts => exact parse_around hvalid hparts

theorem isValid_of_parse {url : String} {spec : FontSpec} (h : parse url = .ok spec) :
    spec.IsValid := by
  obtain ⟨kind, rest, -, -, hread⟩ := parse_eq_ok_iff.mp h
  unfold readRest at hread
  split_ifs at hread with hfnt hempty hft2 hfc
  · cases hread
    simpa [IsValid] using hempty
  · obtain ⟨path, text, size, -, -, hsize, hpos, hpath, rfl⟩ := readOutline_eq_some_iff.mp hread
    exact ⟨by simpa using hpath, hpos, lt_of_readNat32 hsize⟩
  · obtain ⟨parts, size, hparts, hforall, hsome, hpos, hrange, rfl⟩ :=
      exists_parts_of_readPattern hread
    refine ⟨by simpa using hsome, ?_, hpos, hrange⟩
    rw [String.toList_ofList, List.splitOn_intercalate ':' (fun p hp => (hforall p hp).1) hparts]
    exact fun p hp => (hforall p hp).2

/-- A spec comes back from each of its urls: from the one with the size at the end, and for a
pattern from those with the size at any place among its parts. And whatever is read from any text
is a spec of this kind: it has a path or a pattern, and a size if it is not for a bitmap font. -/
theorem urls_name_specs (spec : FontSpec) :
    (spec.IsValid → ∀ url, spec.HasUrl url → parse url = .ok spec) ∧
      ∀ url, parse url = .ok spec → spec.IsValid :=
  ⟨fun hvalid _ hurl => parse_url hvalid hurl, fun _ => isValid_of_parse⟩

/-- The first part of a pattern can be empty, and the size can stand before the last one. -/
theorem urls_name_specs_size_between :
    let spec : FontSpec := .pattern ":Sans:bold" 10
    let url := "fc::Sans:size=10:bold"
    spec.IsValid ∧ spec.HasUrl url ∧ parse url = .ok spec := by
  intro spec url
  have hvalid : spec.IsValid := ⟨by decide, by decide +kernel, by decide, by decide⟩
  have hurl : spec.HasUrl url := by
    have hparts : ":Sans:bold".toList.splitOn ':' = [[], "Sans".toList] ++ ["bold".toList] := by
      decide +kernel
    have haround := HasUrl.patternAround ":Sans:bold" 10 _ _ hparts
    have hsame : "fc:" ++ String.ofList ([':'].intercalate ([[], "Sans".toList] ++
        ("size=" ++ toString 10).toList :: ["bold".toList])) = url := by decide +kernel
    rwa [hsame] at haround
  exact ⟨hvalid, hurl, (urls_name_specs spec).1 hvalid url hurl⟩

end FontSpec

end PanelSkin
