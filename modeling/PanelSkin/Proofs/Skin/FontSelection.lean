import PanelSkin.Proofs.Expr.Execution
import PanelSkin.Proofs.Skin.FontCircles

/-!
Which declaration of a font is selected. Those of an id are considered in order, up to the first
that applies. Conditions that ask for nothing in a font use none on the way, whatever else they look
up, if that does not lead to a font either.
-/

namespace PanelSkin

/-- The fonts that were loaded, the last in front. -/
def Shelf.fontLoads (s : Shelf) : List FontSpec :=
  s.journal.filterMap fun
    | .font spec => some spec
    | _ => none

/-- An evaluation leads from the one state to the other without using a font. The variables that are
being evaluated are the same. -/
structure SparesFonts (s s' : Cells × Shelf) : Prop where
  flags : s'.1.flags = s.1.flags
  slots : s'.2.fontSlots = s.2.fontSlots
  loads : s'.2.fontLoads = s.2.fontLoads

theorem SparesFonts.refl (s : Cells × Shelf) : SparesFonts s s := ⟨rfl, rfl, rfl⟩

theorem SparesFonts.trans {s s' s'' : Cells × Shelf} (h : SparesFonts s s')
    (h' : SparesFonts s' s'') : SparesFonts s s'' :=
  ⟨h'.flags.trans h.flags, h'.slots.trans h.slots, h'.loads.trans h.loads⟩

/-- No outcome of the computation comes with the use of a font. -/
def leavingFonts : Correspondence Evaluation Evaluation where
  rel x _ := ∀ cells shelf a after shelf', x cells shelf = some ((a, after), shelf') →
    shelf'.fontSlots = shelf.fontSlots ∧ shelf'.fontLoads = shelf.fontLoads
  rel_pure a cells shelf b after shelf' h := by
    cases h
    exact ⟨rfl, rfl⟩
  rel_bind {α β x y f g} hxy hfg cells shelf b after shelf'' h := by
    rw [Run.bind_run] at h
    obtain ⟨⟨⟨a, between⟩, shelf'⟩, hx, hf⟩ := Option.bind_eq_some_iff.mp h
    obtain ⟨hslots, hloads⟩ := hxy cells shelf a between shelf' hx
    obtain ⟨hslots', hloads'⟩ := hfg a between shelf' b after shelf'' hf
    exact ⟨hslots'.trans hslots, hloads'.trans hloads⟩

/-- The name of something else than a font. -/
def Name.NoFont (name : Name) : Prop := ∀ id, name ≠ .font id

/-- While just these flags are up, everything that is looked up is there, and none of it uses a
font. What is looked up in fonts does not matter. -/
structure Lookups.SparesFonts (l : Lookups Evaluation) (flags : List Bool) : Prop where
  returns : (returning flags).LookupsOn Name.NoFont l l
  leaves : leavingFonts.LookupsOn Name.NoFont l l

namespace FontDecl

/-- The condition does not ask for anything in a font. -/
def AsksNoFont (f : FontDecl) : Prop :=
  ∀ condition, f.condition = some condition → ∀ id, ¬ condition.Names (.font id)

variable {f : FontDecl}

theorem AsksNoFont.holds_related {m n : Type → Type} [Monad m] [Monad n] [LawfulMonad m]
    [LawfulMonad n] {R : Correspondence m n} {l : Lookups m} {k : Lookups n} (hf : f.AsksNoFont)
    (h : R.LookupsOn Name.NoFont l k) : R.rel (f.holds l) (f.holds k) := by
  unfold holds
  cases hcondition : f.condition with
  | none => exact R.rel_pure true
  | some condition =>
      apply h.evaluateBool
      rintro name hname id rfl
      exact hf condition hcondition id hname

/-- Whether the declaration applies is found out without using a font. -/
theorem AsksNoFont.holds_run (hf : f.AsksNoFont) {l : Lookups Evaluation} {s : Cells × Shelf}
    (hl : l.SparesFonts s.1.flags) :
    ∃ applies s', (Execution.evaluation Shelf).run (f.holds l) s = some (applies, s') ∧
      SparesFonts s s' := by
  obtain ⟨applies, after, shelf, hflags, hrun, -⟩ := hf.holds_related hl.returns s.1 s.2 rfl
  obtain ⟨hslots, hloads⟩ := hf.holds_related hl.leaves s.1 s.2 applies after shelf hrun
  refine ⟨applies, (after, shelf), ?_, hflags, hslots, hloads⟩
  change (f.holds l s.1 s.2).map _ = _
  rw [hrun]
  rfl

theorem AsksNoFont.sparesFonts_of_run (hf : f.AsksNoFont) {l : Lookups Evaluation}
    {s s' : Cells × Shelf} (hl : l.SparesFonts s.1.flags) {applies : Bool}
    (hrun : (Execution.evaluation Shelf).run (f.holds l) s = some (applies, s')) :
    SparesFonts s s' := by
  obtain ⟨found, s'', hfound, hspares⟩ := hf.holds_run hl
  cases hrun.symm.trans hfound
  exact hspares

end FontDecl

/-! The lookups of a skin. -/

section Skin

variable {α : Type}

theorem guarded_leavingFonts {index : Nat} {fallback : α} {x y : Evaluation α}
    (h : leavingFonts.rel x y) :
    leavingFonts.rel (guarded index fallback x) (guarded index fallback y) := by
  intro cells shelf a after shelf' hrun
  rw [guarded_run] at hrun
  split at hrun
  · cases hrun
    exact ⟨rfl, rfl⟩
  · obtain ⟨⟨⟨b, between⟩, shelf''⟩, hx, hreturned⟩ := Option.map_eq_some_iff.mp hrun
    cases hreturned
    exact h _ shelf a between shelf' hx

theorem onShelf_leavingFonts {f : Shelf → α × Shelf} (h : ∀ shelf,
      (f shelf).2.fontSlots = shelf.fontSlots ∧ (f shelf).2.fontLoads = shelf.fontLoads) :
    leavingFonts.rel (Evaluation.onShelf f) (Evaluation.onShelf f) := by
  intro cells shelf a after shelf' hrun
  cases hrun
  exact h shelf

/-- No expression of the variable asks for anything in a font. -/
def VariableDecl.AsksNoFont (v : VariableDecl) : Prop := ∀ id, ¬ v.Names (.font id)

namespace VariableDecl

variable {v : VariableDecl} {l k : Lookups Evaluation}

theorem AsksNoFont.noFont (hv : v.AsksNoFont) {name : Name} (hname : v.Names name) :
    name.NoFont := by
  rintro id rfl
  exact hv id hname

theorem AsksNoFont.holds_leavingFonts (hv : v.AsksNoFont)
    (h : leavingFonts.LookupsOn Name.NoFont l k) (index : Nat) :
    leavingFonts.rel (v.holds l index) (v.holds k index) := by
  unfold VariableDecl.holds
  cases hcondition : v.condition with
  | none => exact leavingFonts.rel_pure true
  | some condition =>
      apply guarded_leavingFonts
      exact h.evaluateBool fun _ hname => hv.noFont (.condition hcondition hname)

theorem AsksNoFont.current_leavingFonts (hv : v.AsksNoFont)
    (h : leavingFonts.LookupsOn Name.NoFont l k) (index : Nat) :
    leavingFonts.rel (v.current l index) (v.current k index) := by
  have hcompute : leavingFonts.rel (v.compute l) (v.compute k) :=
    h.compute v (fun _ hname => hv.noFont (.value hname)) fun _ _ => Name.noConfusion
  intro cells shelf value after shelf' hrun
  have hrefresh (hrun : v.refresh l index cells shelf = some ((value, after), shelf')) :
      shelf'.fontSlots = shelf.fontSlots ∧ shelf'.fontLoads = shelf.fontLoads := by
    rw [v.refresh_run] at hrun
    obtain ⟨⟨⟨b, between⟩, shelf''⟩, hx, hreturned⟩ := Option.map_eq_some_iff.mp hrun
    cases hreturned
    exact guarded_leavingFonts hcompute cells shelf value between shelf' hx
  rw [v.current_run] at hrun
  split at hrun
  · split at hrun
    · cases hrun
      exact ⟨rfl, rfl⟩
    · exact hrefresh hrun
  · exact hrefresh hrun

end VariableDecl

namespace Context

variable (c : Context)

theorem token_leavingFonts (t : Token) (row : Option Nat) :
    leavingFonts.rel (c.token t row) (c.token t row) :=
  onShelf_leavingFonts fun _ => ⟨rfl, rfl⟩

theorem picture_leavingFonts (name : String) (width height : Option Nat) :
    leavingFonts.rel (c.picture name width height) (c.picture name width height) := by
  apply onShelf_leavingFonts
  intro shelf
  dsimp only [Shelf.fetch]
  cases (shelf.pictures.fetch c.env.loadPicture name width height c.env.resampler).loaded with
  | none => exact ⟨rfl, rfl⟩
  | some path => exact ⟨rfl, rfl⟩

variable {c} (hvariables : ∀ v ∈ c.variableTable.declarations, v.AsksNoFont)
include hvariables

theorem lookups_leavingFonts (depth : Nat) :
    leavingFonts.LookupsOn Name.NoFont (c.lookups depth) (c.lookups depth) := by
  induction depth with
  | zero =>
      apply c.lookupsWith_related _ _ (fun t => c.token_leavingFonts t none) c.picture_leavingFonts
      · intro id _ cells shelf a after shelf' hrun
        cases hrun
      · exact fun id hid => absurd rfl (hid id)
  | succ depth ih =>
      apply c.lookupsWith_related _ _ (fun t => c.token_leavingFonts t none) c.picture_leavingFonts
      · intro id _
        apply c.variableTable.value_related
        intro index v hv _
        have hnone := hvariables v (List.mem_of_getElem? hv)
        exact ⟨hnone.holds_leavingFonts ih index, hnone.current_leavingFonts ih index⟩
      · exact fun id hid => absurd rfl (hid id)

theorem uncircled_noFont : c.Uncircled Name.NoFont where
  closed name other hname hasks := by
    cases hasks with
    | ofVariable hv hother => exact (hvariables _ hv).noFont hother
    | ofFont => exact absurd rfl (hname _)
  apart id hid := absurd rfl (hid id)

/-- The lookups of a skin use no font in a condition, if no variable leads to one. -/
theorem all_sparesFonts {flags : List Bool} (hflags : flags.length = c.variableTable.size) :
    c.all.SparesFonts flags where
  returns := by
    have hcount : flags.count false ≤ c.variableTable.size := hflags ▸ List.count_le_length
    have hfonts : c.fontsNamed Name.NoFont ≤ c.fontTable.size := fontsNamed_le
    have hdepth := c.lt_depth
    exact (uncircled_noFont hvariables).lookups_returning hflags (by omega) (by omega)
  leaves := lookups_leavingFonts hvariables c.depth

end Context

end Skin

/-! The declaration that is selected. -/

namespace FontTable

variable {l : Lookups Evaluation} {id : String} {declarations : List FontDecl}
  {s between s' : Cells × Shelf}

/-- Declarations are considered in order, and none of them applies at its moment. -/
inductive Rejects (l : Lookups Evaluation) :
    List FontDecl → Cells × Shelf → Cells × Shelf → Prop where
  | nil {s : Cells × Shelf} : Rejects l [] s s
  | cons {f : FontDecl} {rest : List FontDecl} {s between s' : Cells × Shelf}
      (hfalse : (Execution.evaluation Shelf).run (f.holds l) s = some (false, between))
      (hrest : Rejects l rest between s') : Rejects l (f :: rest) s s'

/-- The index of the declaration that is the font with an id: those of the id before it do not
apply, and it does. There is none if all of them do not. -/
inductive Selects (l : Lookups Evaluation) (id : String) (declarations : List FontDecl)
    (s s' : Cells × Shelf) : Option Nat → Prop where
  | first {index : Nat} {f : FontDecl} {between : Cells × Shelf}
      (hf : declarations[index]? = some f) (hid : f.id = id)
      (hbefore : Rejects l ((declarations.take index).filter (·.id = id)) s between)
      (htrue : (Execution.evaluation Shelf).run (f.holds l) between = some (true, s')) :
      Selects l id declarations s s' (some index)
  | none (hall : Rejects l (declarations.filter (·.id = id)) s s') :
      Selects l id declarations s s' none

theorem Rejects.sparesFonts (h : Rejects l declarations s s')
    (hdeclarations : ∀ f ∈ declarations, f.AsksNoFont) (hl : l.SparesFonts s.1.flags) :
    SparesFonts s s' := by
  induction h with
  | nil => exact .refl _
  | cons hfalse hrest ih =>
      obtain ⟨hf, hothers⟩ := List.forall_mem_cons.mp hdeclarations
      have hfirst := hf.sparesFonts_of_run hl hfalse
      exact hfirst.trans (ih hothers (hfirst.flags ▸ hl))

theorem Selects.sparesFonts {selected : Option Nat} (h : Selects l id declarations s s' selected)
    (hdeclarations : ∀ f ∈ declarations, f.AsksNoFont) (hl : l.SparesFonts s.1.flags) :
    SparesFonts s s' := by
  cases h with
  | none hall =>
      exact hall.sparesFonts (fun f hf => hdeclarations f (List.mem_of_mem_filter hf)) hl
  | first hf hid hbefore htrue =>
      have hrejected := hbefore.sparesFonts
        (fun f hf => hdeclarations f (List.mem_of_mem_take (List.mem_of_mem_filter hf))) hl
      have hselected := (hdeclarations _ (List.mem_of_getElem? hf)).sparesFonts_of_run
        (hrejected.flags ▸ hl) htrue
      exact hrejected.trans hselected

theorem Selects.declared {index : Nat} (h : Selects l id declarations s s' (some index)) :
    ∃ f, declarations[index]? = some f ∧ f.id = id := by
  cases h with
  | first hf hid _ _ => exact ⟨_, hf, hid⟩

theorem Selects.skip {f : FontDecl} (hid : f.id ≠ id) {selected : Option Nat}
    (h : Selects l id declarations s s' selected) :
    Selects l id (f :: declarations) s s' (selected.map (· + 1)) := by
  cases h with
  | none hall => exact .none (by simpa [hid] using hall)
  | first hf hg hbefore htrue =>
      exact .first (by simpa using hf) hg (by simpa [hid] using hbefore) htrue

theorem Selects.reject {f : FontDecl} (hid : f.id = id)
    (hfalse : (Execution.evaluation Shelf).run (f.holds l) s = some (false, between))
    {selected : Option Nat} (h : Selects l id declarations between s' selected) :
    Selects l id (f :: declarations) s s' (selected.map (· + 1)) := by
  cases h with
  | none hall => exact .none (by simpa [hid] using Rejects.cons hfalse hall)
  | first hf hg hbefore htrue =>
      exact .first (by simpa using hf) hg (by simpa [hid] using Rejects.cons hfalse hbefore) htrue

theorem exists_selects (hdeclarations : ∀ f ∈ declarations, f.AsksNoFont)
    (hl : l.SparesFonts s.1.flags) (id : String) :
    ∃ s' selected, Selects l id declarations s s' selected := by
  induction declarations generalizing s with
  | nil => exact ⟨s, none, .none .nil⟩
  | cons f rest ih =>
      obtain ⟨hf, hothers⟩ := List.forall_mem_cons.mp hdeclarations
      by_cases hid : f.id = id
      · obtain ⟨applies, between, hrun, hspares⟩ := hf.holds_run hl
        cases applies with
        | true => exact ⟨between, some 0, .first rfl hid .nil hrun⟩
        | false =>
            obtain ⟨s', selected, hselects⟩ := ih hothers (hspares.flags ▸ hl)
            exact ⟨s', _, hselects.reject hid hrun⟩
      · obtain ⟨s', selected, hselects⟩ := ih hothers hl
        exact ⟨s', _, hselects.skip hid⟩

theorem Rejects.selectFrom_append (rest : List FontDecl) (start : Nat)
    (h : Rejects l (declarations.filter (·.id = id)) s s') :
    (Execution.evaluation Shelf).run (selectFrom l id start (declarations ++ rest)) s =
      (Execution.evaluation Shelf).run (selectFrom l id (start + declarations.length) rest) s' := by
  induction declarations generalizing start s with
  | nil =>
      cases h
      rfl
  | cons f declarations ih =>
      have hlength : start + (f :: declarations).length = start + 1 + declarations.length := by
        rw [List.length_cons]
        omega
      rw [List.cons_append, selectFrom, hlength]
      by_cases hid : f.id = id
      · rw [List.filter_cons_of_pos (by simpa using hid)] at h
        cases h with
        | cons hfalse hrest =>
            rw [if_pos hid, Execution.run_bind_of_run hfalse]
            exact ih (start + 1) hrest
      · rw [List.filter_cons_of_neg (by simpa using hid)] at h
        rw [if_neg hid]
        exact ih (start + 1) h

theorem Selects.select_run {selected : Option Nat}
    (h : Selects l id declarations s s' selected) :
    (Execution.evaluation Shelf).run (select l ⟨declarations⟩ id) s =
      some (selected.bind fun index => (declarations[index]?).map (index, ·), s') := by
  unfold select
  cases h with
  | none hall =>
      have hrun := hall.selectFrom_append [] 0
      rw [List.append_nil] at hrun
      exact hrun
  | @first index f between hf hid hbefore htrue =>
      obtain ⟨hlt, rfl⟩ := List.getElem?_eq_some_iff.mp hf
      have hrun := hbefore.selectFrom_append (declarations.drop index) 0
      rw [List.take_append_drop, List.length_take_of_le hlt.le, Nat.zero_add,
        List.drop_eq_getElem_cons hlt] at hrun
      rw [hrun, selectFrom, if_pos hid, Execution.run_bind_of_run htrue, Option.bind_some, hf]
      rfl

end FontTable

end PanelSkin
