import PanelSkin.Proofs.Skin.Faithful
import PanelSkin.Proofs.Skin.FontSelection

/-!
When fonts are loaded. Conditions may change from one get of a font to the next, and with them the
declaration that an id stands for. Each declaration has a slot of its own, which is filled when the
declaration is selected for the first time and never again: with the face, or with nothing if it
does not load. So whatever the conditions do, each declaration is loaded once at most, and what came
of it stays.
-/

namespace PanelSkin

/-! One get. -/

namespace Shelf

variable {load : FontSpec → Except FontError Face} {s : Shelf} {index : Nat}

theorem useFont_of_filled {face : Option Face} (h : s.fontSlots[index]? = some (some face))
    (spec : FontSpec) : s.useFont load index spec = (face, s) := by
  unfold useFont
  rw [FontSlots.use_of_filled h]
  rfl

theorem useFont_of_unused (h : s.fontSlots[index]? = some none) (spec : FontSpec) :
    s.useFont load index spec = ((load spec).toOption,
      { s with
        fontSlots := s.fontSlots.set index (some (load spec).toOption)
        journal := .font spec :: s.journal }) := by
  have hunused : s.fontSlots[index]?.getD none = none := by rw [h, Option.getD_some]
  unfold useFont
  rw [FontSlots.use_of_unused hunused]
  rfl

end Shelf

/-- A get of a font, as the registry sees it. -/
structure FontGet where
  id : String
  /-- The index of the declaration that was selected. -/
  selected : Option Nat
  /-- What loading fonts came to at that time. -/
  load : FontSpec → Except FontError Face
  face : Option Face
  /-- What was loaded for it. -/
  loads : List FontSpec

/-- A get in some context, by which a state becomes another one. -/
structure Context.Gets (c : Context) (l : Lookups Evaluation) (s s' : Cells × Shelf)
    (got : FontGet) : Prop where
  load : got.load = (c.env.loadFont · c.base)
  selects : ∃ between, FontTable.Selects l got.id c.fontTable.declarations s between got.selected
  run : (Execution.evaluation Shelf).run (c.font l got.id) s = some (got.face, s')
  loads : s'.2.fontLoads = got.loads ++ s.2.fontLoads

/-- What a get does to the slots: a font that is not declared or does not apply is not there; a
slot that is filled says what the font is; a slot that is empty is filled with what loading comes
to. -/
inductive FontGet.Uses (got : FontGet) (declarations : List FontDecl) (slots later : FontSlots) :
    Prop where
  | nothing (hselected : got.selected = none) (hface : got.face = none) (hloads : got.loads = [])
      (hlater : later = slots)
  | filled {index : Nat} {f : FontDecl} (hselected : got.selected = some index)
      (hf : declarations[index]? = some f) (hid : f.id = got.id)
      (hslot : slots[index]? = some (some got.face)) (hloads : got.loads = [])
      (hlater : later = slots)
  | unused {index : Nat} {f : FontDecl} (hselected : got.selected = some index)
      (hf : declarations[index]? = some f) (hid : f.id = got.id)
      (hslot : slots[index]? = some none) (hface : got.face = (got.load f.spec).toOption)
      (hloads : got.loads = [f.spec]) (hlater : later = slots.set index (some got.face))

section Get

variable {c : Context} {l : Lookups Evaluation} {s s' : Cells × Shelf} {got : FontGet}

theorem Context.font_run_of_none {id : String}
    (h : FontTable.Selects l id c.fontTable.declarations s s' none) :
    (Execution.evaluation Shelf).run (c.font l id) s = some (none, s') := by
  unfold font
  rw [Execution.run_bind_of_run h.select_run]
  rfl

theorem Context.font_run_of_some {id : String} {index : Nat} {f : FontDecl}
    (h : FontTable.Selects l id c.fontTable.declarations s s' (some index))
    (hf : c.fontTable.declarations[index]? = some f) :
    (Execution.evaluation Shelf).run (c.font l id) s =
      let used := s'.2.useFont (c.env.loadFont · c.base) index f.spec
      some (used.1, s'.1, used.2) := by
  unfold font
  rw [Execution.run_bind_of_run h.select_run, Option.bind_some, hf]
  rfl

theorem Context.exists_uses {id : String} {selected : Option Nat} {between : Cells × Shelf}
    (hselects : FontTable.Selects l id c.fontTable.declarations s between selected)
    (hspares : SparesFonts s between) (hslots : s.2.fontSlots.length = c.fontTable.size) :
    ∃ face loads s', (Execution.evaluation Shelf).run (c.font l id) s = some (face, s') ∧
      s'.2.fontLoads = loads ++ s.2.fontLoads ∧
      FontGet.Uses ⟨id, selected, (c.env.loadFont · c.base), face, loads⟩ c.fontTable.declarations
        s.2.fontSlots s'.2.fontSlots := by
  rw [← hspares.slots] at hslots ⊢
  rw [← hspares.loads]
  cases selected with
  | none =>
      exact ⟨none, [], between, c.font_run_of_none hselects, rfl, .nothing rfl rfl rfl rfl⟩
  | some index =>
      obtain ⟨f, hf, hid⟩ := hselects.declared
      have hlt : index < between.2.fontSlots.length :=
        hslots ▸ (List.getElem?_eq_some_iff.mp hf).1
      have hrun := c.font_run_of_some hselects hf
      have hslot := List.getElem?_eq_getElem hlt
      generalize between.2.fontSlots[index] = slot at hslot
      cases slot with
      | some face =>
          rw [Shelf.useFont_of_filled hslot] at hrun
          exact ⟨face, [], between, hrun, rfl, .filled rfl hf hid hslot rfl rfl⟩
      | none =>
          rw [Shelf.useFont_of_unused hslot] at hrun
          exact ⟨_, [f.spec], _, hrun, rfl, .unused rfl hf hid hslot rfl rfl rfl⟩

variable (hl : l.SparesFonts s.1.flags)
  (hdeclarations : ∀ f ∈ c.fontTable.declarations, f.AsksNoFont)
  (hslots : s.2.fontSlots.length = c.fontTable.size)
include hl hdeclarations hslots

theorem Context.exists_gets (id : String) : ∃ got s', got.id = id ∧ c.Gets l s s' got := by
  obtain ⟨between, selected, hselects⟩ := FontTable.exists_selects hdeclarations hl id
  have hspares := hselects.sparesFonts hdeclarations hl
  obtain ⟨face, loads, s', hrun, hloads, -⟩ := c.exists_uses hselects hspares hslots
  exact ⟨⟨id, selected, _, face, loads⟩, s', rfl, rfl, ⟨between, hselects⟩, hrun, hloads⟩

theorem Context.Gets.uses (h : c.Gets l s s' got) :
    got.Uses c.fontTable.declarations s.2.fontSlots s'.2.fontSlots := by
  obtain ⟨between, hselects⟩ := h.selects
  have hspares := hselects.sparesFonts hdeclarations hl
  obtain ⟨face, loads, s'', hrun, hloads, huses⟩ := c.exists_uses hselects hspares hslots
  obtain ⟨rfl, rfl⟩ := Prod.mk.inj (Option.some.inj (hrun.symm.trans h.run))
  obtain rfl : loads = got.loads := List.append_cancel_right (hloads.symm.trans h.loads)
  rwa [← h.load] at huses

end Get

/-! All gets. -/

namespace FontTable

variable {t : FontTable} {gots earlier later : List FontGet} {got : FontGet} {index : Nat}
  {shelf : Shelf}

/-- The gets that can come about, the last in front, and the shelf after them. Nothing is loaded at
first. Each get has a context and lookups of its own, and between two gets everything but the slots
may change. -/
inductive Reached (t : FontTable) : List FontGet → Shelf → Prop where
  | new {shelf : Shelf} (hslots : shelf.fontSlots = List.replicate t.size none) : Reached t [] shelf
  | elsewhere {gots : List FontGet} {shelf : Shelf} (h : Reached t gots shelf) (later : Shelf)
      (hslots : later.fontSlots = shelf.fontSlots) : Reached t gots later
  | got {gots : List FontGet} {s s' : Cells × Shelf} (h : Reached t gots s.2) (c : Context)
      (hfonts : c.fontTable = t) (l : Lookups Evaluation) (hl : l.SparesFonts s.1.flags)
      {got : FontGet} (hgets : c.Gets l s s' got) : Reached t (got :: gots) s'.2

/-- The face, if any, at the last get for which the declaration at an index was selected. -/
def outcome (index : Nat) : List FontGet → Option (Option Face)
  | [] => none
  | got :: earlier => if got.selected = some index then some got.face else outcome index earlier

/-- The slots after some gets. -/
def slotsAfter (t : FontTable) (gots : List FontGet) : FontSlots :=
  (List.range t.size).map fun index => outcome index gots

theorem length_slotsAfter (t : FontTable) (gots : List FontGet) :
    (t.slotsAfter gots).length = t.size := by
  rw [slotsAfter, List.length_map, List.length_range]

theorem getElem?_slotsAfter (hindex : index < t.size) :
    (t.slotsAfter gots)[index]? = some (outcome index gots) := by
  rw [slotsAfter, List.getElem?_map, List.getElem?_range hindex, Option.map_some]

theorem outcome_of_slotsAfter {slot : Option (Option Face)}
    (h : (t.slotsAfter gots)[index]? = some slot) : outcome index gots = slot := by
  have hindex : index < t.size :=
    t.length_slotsAfter gots ▸ (List.getElem?_eq_some_iff.mp h).1
  exact Option.some.inj ((getElem?_slotsAfter hindex).symm.trans h)

theorem slotsAfter_of_unselected (h : got.selected = none) :
    t.slotsAfter (got :: earlier) = t.slotsAfter earlier := by
  apply List.map_congr_left
  intro index _
  rw [outcome, h, if_neg (Option.some_ne_none index).symm]

theorem slotsAfter_of_selected (h : got.selected = some index) :
    t.slotsAfter (got :: earlier) = (t.slotsAfter earlier).set index (some got.face) := by
  apply List.ext_getElem
  · simp only [List.length_set, length_slotsAfter]
  · intro other hother _
    simp only [List.getElem_set, slotsAfter, List.getElem_map, List.getElem_range, outcome, h,
      Option.some.injEq]

/-- What a get does to the slots is what it adds to the outcomes. -/
theorem slotsAfter_of_uses {slots : FontSlots}
    (h : got.Uses t.declarations (t.slotsAfter earlier) slots) :
    slots = t.slotsAfter (got :: earlier) := by
  cases h with
  | nothing hselected hface hloads hlater =>
      exact hlater.trans (slotsAfter_of_unselected hselected).symm
  | filled hselected hf hid hslot hloads hlater =>
      obtain ⟨hlt, hface⟩ := List.getElem?_eq_some_iff.mp hslot
      rw [hlater, slotsAfter_of_selected hselected, ← hface, List.set_getElem_self]
  | unused hselected hf hid hslot hface hloads hlater =>
      exact hlater.trans (slotsAfter_of_selected hselected).symm

theorem outcome_eq_none : outcome index gots = none ↔ ∀ g ∈ gots, g.selected ≠ some index := by
  induction gots with
  | nil => simp [outcome]
  | cons got earlier ih =>
      rw [outcome, List.forall_mem_cons, ← ih]
      split <;> simp_all

/-- A declaration that is selected has an outcome already, or is loaded. -/
theorem uses_of_selected {slots : FontSlots}
    (h : got.Uses t.declarations (t.slotsAfter earlier) slots)
    (hselected : got.selected = some index) :
    ∃ f, t.declarations[index]? = some f ∧ f.id = got.id ∧
      (outcome index earlier = some got.face ∧ got.loads = [] ∨
        outcome index earlier = none ∧ got.loads = [f.spec] ∧
          got.face = (got.load f.spec).toOption) := by
  cases h with
  | nothing hnone => cases hnone.symm.trans hselected
  | @filled _ f hfilled hf hid hslot hloads =>
      cases hfilled.symm.trans hselected
      exact ⟨f, hf, hid, .inl ⟨outcome_of_slotsAfter hslot, hloads⟩⟩
  | @unused _ f hunused hf hid hslot hface hloads =>
      cases hunused.symm.trans hselected
      exact ⟨f, hf, hid, .inr ⟨outcome_of_slotsAfter hslot, hloads, hface⟩⟩

/-- Each get uses the slots that those before it have left. -/
inductive UsesInTurn (t : FontTable) : List FontGet → Prop where
  | nil : UsesInTurn t []
  | cons {got : FontGet} {earlier : List FontGet} {slots : FontSlots} (h : UsesInTurn t earlier)
      (huses : got.Uses t.declarations (t.slotsAfter earlier) slots) :
      UsesInTurn t (got :: earlier)

/-- The slots say what came of the gets. -/
theorem Reached.slots (h : t.Reached gots shelf) (ht : ∀ f ∈ t.declarations, f.AsksNoFont) :
    shelf.fontSlots = t.slotsAfter gots ∧ t.UsesInTurn gots := by
  induction h with
  | new hslots =>
      refine ⟨?_, .nil⟩
      rw [hslots, slotsAfter]
      simp [outcome]
  | elsewhere _ later hslots ih => exact ⟨hslots.trans ih.1, ih.2⟩
  | @got gots s s' _ c hfonts l hl got hgets ih =>
      subst hfonts
      obtain ⟨hslots, hturn⟩ := ih
      have huses := hgets.uses hl ht (hslots ▸ c.fontTable.length_slotsAfter gots)
      rw [hslots] at huses
      exact ⟨slotsAfter_of_uses huses, .cons hturn huses⟩

/-- What was loaded for the declaration at an index. -/
def loadsOf (index : Nat) (gots : List FontGet) : List FontSpec :=
  (gots.filter (·.selected = some index)).flatMap (·.loads)

namespace UsesInTurn

theorem of_append (h : t.UsesInTurn (later ++ gots)) : t.UsesInTurn gots := by
  induction later with
  | nil => exact h
  | cons got later ih =>
      cases h with
      | cons h _ => exact ih h

/-- The outcome for a declaration is the same at all gets for which it was selected. -/
theorem outcome_eq (h : t.UsesInTurn gots) {g : FontGet} (hg : g ∈ gots)
    (hselected : g.selected = some index) : outcome index gots = some g.face := by
  induction h with
  | nil => cases hg
  | @cons got earlier _ _ huses ih =>
      rw [outcome]
      obtain rfl | hearlier := List.mem_cons.mp hg
      · exact if_pos hselected
      · have hbefore := ih hearlier
        split
        · rename_i hagain
          obtain ⟨f, -, -, ⟨hsame, -⟩ | ⟨hnone, -⟩⟩ := uses_of_selected huses hagain
          · rw [← hsame, hbefore]
          · cases hnone.symm.trans hbefore
        · exact hbefore

/-- An outcome is that of loading, at a get for which the declaration was selected. -/
theorem exists_load (h : t.UsesInTurn gots) {face : Option Face}
    (houtcome : outcome index gots = some face) :
    ∃ f, t.declarations[index]? = some f ∧ ∃ g ∈ gots, g.selected = some index ∧
      g.loads = [f.spec] ∧ face = (g.load f.spec).toOption := by
  induction h with
  | nil => cases houtcome
  | @cons got earlier _ _ huses ih =>
      have hearlier (hbefore : outcome index earlier = some face) :
          ∃ f, t.declarations[index]? = some f ∧ ∃ g ∈ got :: earlier, g.selected = some index ∧
            g.loads = [f.spec] ∧ face = (g.load f.spec).toOption := by
        obtain ⟨f, hf, g, hg, hloaded⟩ := ih hbefore
        exact ⟨f, hf, g, List.mem_cons_of_mem got hg, hloaded⟩
      rw [outcome] at houtcome
      split at houtcome
      · rename_i hselected
        cases houtcome
        obtain ⟨f, hf, -, ⟨hsame, -⟩ | ⟨-, hloads, hface⟩⟩ := uses_of_selected huses hselected
        · exact hearlier hsame
        · exact ⟨f, hf, got, List.mem_cons_self, hselected, hloads, hface⟩
      · exact hearlier houtcome

theorem length_loadsOf (h : t.UsesInTurn gots) (index : Nat) :
    (loadsOf index gots).length = (outcome index gots).toList.length := by
  induction h with
  | nil => rfl
  | @cons got earlier _ _ huses ih =>
      rw [loadsOf, outcome]
      by_cases hselected : got.selected = some index
      · rw [List.filter_cons_of_pos (by simpa using hselected), List.flatMap_cons,
          List.length_append, if_pos hselected, ← loadsOf, ih]
        obtain ⟨f, -, -, ⟨hsame, hloads⟩ | ⟨hnone, hloads, -⟩⟩ := uses_of_selected huses hselected
        · rw [hsame, hloads]
          rfl
        · rw [hnone, hloads]
          rfl
      · rw [List.filter_cons_of_neg (by simpa using hselected), if_neg hselected]
        exact ih

end UsesInTurn

end FontTable

/-- What a get comes to after others. Of the declarations of its id the one that is selected counts,
and no other. It is loaded if it was never selected before. Otherwise what came of it then stays:
the face, or that there is none. -/
structure FontGet.Follows (got : FontGet) (t : FontTable) (earlier : List FontGet) : Prop where
  unselected (h : got.selected = none) : got.face = none ∧ got.loads = []
  selected (index : Nat) (h : got.selected = some index) :
    ∃ f, t.declarations[index]? = some f ∧ f.id = got.id ∧
      ((∀ g ∈ earlier, g.selected ≠ some index) →
        got.loads = [f.spec] ∧ got.face = (got.load f.spec).toOption) ∧
      (∀ g ∈ earlier, g.selected = some index → got.loads = [] ∧ got.face = g.face) ∧
      ∃ g ∈ got :: earlier, g.selected = some index ∧ g.loads = [f.spec] ∧
        got.face = (g.load f.spec).toOption

namespace FontTable

variable {t : FontTable} {gots : List FontGet} {shelf : Shelf}

theorem UsesInTurn.follows {got : FontGet} {earlier : List FontGet}
    (h : t.UsesInTurn (got :: earlier)) : got.Follows t earlier where
  unselected hnone := by
    cases h with
    | cons _ huses =>
      cases huses with
      | nothing _ hface hloads => exact ⟨hface, hloads⟩
      | filled hselected => cases hselected.symm.trans hnone
      | unused hselected => cases hselected.symm.trans hnone
  selected index hselected := by
    have hall := h
    cases h with
    | cons h huses =>
      obtain ⟨f, hf, hid, hcases⟩ := uses_of_selected huses hselected
      refine ⟨f, hf, hid, ?_, ?_, ?_⟩
      · intro hnew
        obtain ⟨hsome, -⟩ | ⟨-, hloaded⟩ := hcases
        · cases (outcome_eq_none.mpr hnew).symm.trans hsome
        · exact hloaded
      · intro g hg hbefore
        have houtcome := h.outcome_eq hg hbefore
        obtain ⟨hsame, hloads⟩ | ⟨hnone, -⟩ := hcases
        · exact ⟨hloads, Option.some.inj (hsame.symm.trans houtcome)⟩
        · cases hnone.symm.trans houtcome
      · obtain ⟨g, hg, hloaded⟩ := hall.exists_load (if_pos hselected)
        cases hf.symm.trans hg
        exact hloaded

/-- A lookup of a font in a skin is such a get, if neither conditions of fonts nor variables ask for
anything in a font. -/
theorem Reached.font (s : Skin) (hcells : s.cells.length = s.variableTable.size)
    (hvariables : ∀ v ∈ s.variableTable.declarations, v.AsksNoFont)
    (hconditions : ∀ f ∈ s.fontTable.declarations, f.AsksNoFont)
    (h : s.fontTable.Reached gots s.shelf) (env : Environment) (id : String) :
    ∃ got later, got.id = id ∧ s.font env id = some (got.face, later) ∧
      later.fontTable.Reached (got :: gots) later.shelf := by
  have hl : (s.context env).all.SparesFonts s.cells.flags :=
    Context.all_sparesFonts hvariables ((List.length_map _).trans hcells)
  have hlength : s.shelf.fontSlots.length = s.fontTable.size :=
    (h.slots hconditions).1 ▸ s.fontTable.length_slotsAfter gots
  obtain ⟨got, s', hid, hgets⟩ :=
    Context.exists_gets (c := s.context env) (s := (s.cells, s.shelf)) hl hconditions hlength id
  have hrun := hgets.run
  rw [hid] at hrun
  refine ⟨got, { s with cells := s'.1, shelf := s'.2 }, hid, ?_, .got h _ rfl _ hl hgets⟩
  obtain ⟨⟨⟨face, cells⟩, shelf⟩, hfont, hreturned⟩ := Option.map_eq_some_iff.mp hrun
  cases hreturned
  change ((s.context env).font (s.context env).all id s.cells s.shelf).map _ = _
  rw [hfont]
  rfl

/-- Whatever the conditions find, every get returns. It has the face of the first declaration of its
id that applies, unless that does not load or did not before; and over all gets each declaration is
loaded once at most, when it is selected for the first time. -/
theorem loads_when_first_selected (ht : ∀ f ∈ t.declarations, f.AsksNoFont)
    (h : t.Reached gots shelf) :
    (∀ (c : Context) (l : Lookups Evaluation) (cells : Cells) (id : String), c.fontTable = t →
      l.SparesFonts cells.flags → ∃ got s', got.id = id ∧ c.Gets l (cells, shelf) s' got ∧
        t.Reached (got :: gots) s'.2) ∧
      (∀ later got earlier, gots = later ++ got :: earlier → got.Follows t earlier) ∧
      ∀ index, (loadsOf index gots).length ≤ 1 := by
  obtain ⟨hslots, hturn⟩ := h.slots ht
  refine ⟨?_, ?_, ?_⟩
  · rintro c l cells id rfl hl
    have hlength : shelf.fontSlots.length = c.fontTable.size :=
      hslots ▸ c.fontTable.length_slotsAfter gots
    obtain ⟨got, s', hid, hgets⟩ := Context.exists_gets (s := (cells, shelf)) hl ht hlength id
    exact ⟨got, s', hid, hgets, .got h c rfl l hl hgets⟩
  · rintro later got earlier rfl
    exact hturn.of_append.follows
  · intro index
    rw [hturn.length_loadsOf]
    cases outcome index gots with
    | none => exact Nat.zero_le 1
    | some face => exact Nat.le_refl 1

/-- A large font while a token is not zero, and a small one otherwise. -/
def twoSizes : FontTable :=
  let big : Token := { name := "big", id := 1 }
  { declarations := [
      { id := "f", spec := .outline "large.ttf" 16, condition := some (.text ⟨[.token big]⟩) },
      { id := "f", spec := .bitmap "small.fnt" }] }

/-- The fonts of two sizes, while the token has some value and loading comes to something. -/
def twoSizesAt (big : Int64) (load : FontSpec → Except FontError Face) : Context where
  env :=
    { Environment.ofTexts [] with
      host := { tokenId := fun _ => some 1, token := fun _ _ => .number big }
      loadFont := fun spec _ => load spec }
  base := ⟨"s"⟩
  fontTable := twoSizes

theorem twoSizesAt_sparesFonts (big : Int64) (load : FontSpec → Except FontError Face) :
    (twoSizesAt big load).all.SparesFonts [] := by
  apply Context.all_sparesFonts
  · intro v hv
    cases hv
  · rfl

/-- The small font is not there when it is first asked for. Then the large one is selected and
loaded. By the time the small one is selected again it has come to be there, and is not found. -/
theorem loads_when_first_selected_two_sizes :
    let face : Face := ⟨6, 8, 7, 1, 9, fun _ => 6, fun _ => none⟩
    let missing : FontSpec → Except FontError Face := fun _ => .error .unparsable
    let present : FontSpec → Except FontError Face := fun _ => .ok face
    let first : FontGet := ⟨"f", some 1, missing, none, [.bitmap "small.fnt"]⟩
    let second : FontGet := ⟨"f", some 0, present, some face, [.outline "large.ttf" 16]⟩
    let third : FontGet := ⟨"f", some 1, present, none, []⟩
    (∀ f ∈ twoSizes.declarations, f.AsksNoFont) ∧
      ∃ shelf, twoSizes.Reached [third, second, first] shelf ∧
        third.Follows twoSizes [second, first] ∧
        (∀ index, (loadsOf index [third, second, first]).length ≤ 1) ∧
        ∃ fourth s', fourth.id = "f" ∧
          (twoSizesAt 1 missing).Gets (twoSizesAt 1 missing).all ([], shelf) s' fourth := by
  intro face missing present first second third
  have hconditions : ∀ f ∈ twoSizes.declarations, f.AsksNoFont := by
    intro f hf condition hcondition id hname
    obtain rfl | rfl := List.mem_pair.mp hf
    · cases hcondition
      cases hname
    · cases hcondition
  have hnew : twoSizes.Reached []
      { fontSlots := [none, none], pictures := .empty ⟨"s"⟩ 1 } := .new rfl
  have hfirst : twoSizes.Reached [first] _ :=
    .got (s := ([], _)) hnew (twoSizesAt 0 missing) rfl _ (twoSizesAt_sparesFonts 0 missing)
      ⟨rfl, ⟨_, .first rfl rfl (.cons rfl .nil) rfl⟩, rfl, rfl⟩
  have hsecond : twoSizes.Reached [second, first] _ :=
    .got (s := ([], _)) hfirst (twoSizesAt 1 present) rfl _ (twoSizesAt_sparesFonts 1 present)
      ⟨rfl, ⟨_, .first rfl rfl .nil rfl⟩, rfl, rfl⟩
  have hthird : twoSizes.Reached [third, second, first] _ :=
    .got (s := ([], _)) hsecond (twoSizesAt 0 present) rfl _ (twoSizesAt_sparesFonts 0 present)
      ⟨rfl, ⟨_, .first rfl rfl (.cons rfl .nil) rfl⟩, rfl, rfl⟩
  obtain ⟨hnext, hfollows, honce⟩ := loads_when_first_selected hconditions hthird
  obtain ⟨fourth, s', hid, hgets, -⟩ :=
    hnext (twoSizesAt 1 missing) _ [] "f" rfl (twoSizesAt_sparesFonts 1 missing)
  exact ⟨hconditions, _, hthird, hfollows [] third _ rfl, honce, fourth, s', hid, hgets⟩

end FontTable

end PanelSkin
