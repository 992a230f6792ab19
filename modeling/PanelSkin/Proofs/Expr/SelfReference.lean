import PanelSkin.Proofs.Expr.Guard

/-!
Variables that do not refer back to themselves. Evaluating a declaration changes its own cell only
where it comes back to it, and for that it has to ask for its own id. So an evaluation that ends
though nobody can ask for the id leaves the cell as it was, with the flag up.
-/

namespace PanelSkin

variable {σ α β : Type}

theorem Cells.getElem?_setFlag (cells : Cells) (index : Nat) (up : Bool) :
    (cells.setFlag index up)[index]? = cells[index]?.map ({ · with evaluating := up }) :=
  List.getElem?_modify_eq _ index cells

namespace VariableDecl

theorem getElem?_keep (v : VariableDecl) (now index : Nat) (value : Value) (cells : Cells) :
    (v.keep now index value cells)[index]? =
      if v.policy = .always then cells[index]?
      else cells[index]?.map ({ · with kept := some ⟨value, now⟩ }) := by
  unfold keep
  split
  · rfl
  · exact List.getElem?_modify_eq _ index cells

/-- Evaluated from some state the declaration does not come back to itself: its cell stays as it is,
with the flag up. -/
def SparesItself (lookups : Lookups (Run σ)) (index : Nat) (v : VariableDecl) (cells : Cells)
    (st : σ) : Prop :=
  ∀ value after st', v.compute lookups (cells.setFlag index true) st = some ((value, after), st') →
    after[index]? = (cells.setFlag index true)[index]?

end VariableDecl

/-- The same lookups, but for one variable: asking for it has no outcome. -/
def Lookups.withholding (l : Lookups (Run σ)) (id : String) : Lookups (Run σ) :=
  { l with
    variableText := fun other => if other = id then Run.exhausted else l.variableText other
    variableValue := fun other => if other = id then Run.exhausted else l.variableValue other }

/-- Where the first computation has an outcome, the second has the same, and the cell at an index is
as before. -/
def sparing (index : Nat) : Correspondence (Run σ) (Run σ) where
  rel x y := ∀ cells st a after st', x cells st = some ((a, after), st') →
    y cells st = some ((a, after), st') ∧ after[index]? = cells[index]?
  rel_pure a cells st b after st' h := by
    cases h
    exact ⟨rfl, rfl⟩
  rel_bind {α β x y f g} hxy hfg cells st b after st'' h := by
    rw [Run.bind_run] at h
    obtain ⟨⟨⟨a, between⟩, st'⟩, hx, hf⟩ := Option.bind_eq_some_iff.mp h
    obtain ⟨hy, hbetween⟩ := hxy cells st a between st' hx
    obtain ⟨hg, hafter⟩ := hfg a between st' b after st'' hf
    refine ⟨?_, hafter.trans hbetween⟩
    rw [Run.bind_run, hy]
    exact hg

section Declarations

variable {index other : Nat} {l k : Lookups (Run σ)}

theorem exhausted_sparing (y : Run σ α) : (sparing index).rel Run.exhausted y := by
  intro cells st a after st' h
  cases h

theorem guarded_sparing (hother : other ≠ index) {fallback : α} {x y : Run σ α}
    (h : (sparing index).rel x y) :
    (sparing index).rel (guarded other fallback x) (guarded other fallback y) := by
  intro cells st a after st' hrun
  rw [guarded_run] at hrun ⊢
  split at hrun
  · rename_i hup
    cases hrun
    exact ⟨if_pos hup, rfl⟩
  · rename_i hdown
    obtain ⟨⟨⟨b, between⟩, st''⟩, hx, hreturned⟩ := Option.map_eq_some_iff.mp hrun
    cases hreturned
    obtain ⟨hy, hbetween⟩ := h _ st a between st' hx
    refine ⟨?_, ?_⟩
    · rw [if_neg hdown, hy]
      rfl
    · rw [Cells.setFlag, List.getElem?_modify_ne _ _ hother, hbetween, Cells.setFlag,
        List.getElem?_modify_ne _ _ hother]

theorem VariableDecl.holds_sparing (v : VariableDecl) (hother : other ≠ index)
    (h : (sparing index).Lookups l k) :
    (sparing index).rel (v.holds l other) (v.holds k other) := by
  unfold VariableDecl.holds
  cases v.condition with
  | none => exact (sparing index).rel_pure true
  | some condition => exact guarded_sparing hother (h.evaluateBool condition)

theorem VariableDecl.refresh_sparing (v : VariableDecl) (hother : other ≠ index)
    (h : (sparing index).Lookups l k) :
    (sparing index).rel (v.refresh l other) (v.refresh k other) := by
  intro cells st value after st' hrun
  rw [v.refresh_run] at hrun ⊢
  obtain ⟨⟨⟨b, between⟩, st''⟩, hx, hreturned⟩ := Option.map_eq_some_iff.mp hrun
  cases hreturned
  have hguarded : (sparing index).rel (guarded other (.boolean false) (v.compute l))
      (guarded other (.boolean false) (v.compute k)) := guarded_sparing hother (h.compute v)
  obtain ⟨hy, hbetween⟩ := hguarded cells st value between st' hx
  refine ⟨?_, ?_⟩
  · rw [hy, h.clock]
    rfl
  · unfold VariableDecl.keep
    split
    · exact hbetween
    · rw [List.getElem?_modify_ne _ _ hother, hbetween]

theorem VariableDecl.current_sparing (v : VariableDecl) (hother : other ≠ index)
    (h : (sparing index).Lookups l k) :
    (sparing index).rel (v.current l other) (v.current k other) := by
  intro cells st value after st' hrun
  have hrefresh := v.refresh_sparing hother h cells st value after st'
  rw [v.current_run, h.clock] at hrun
  rw [v.current_run]
  cases hkept : (cells.cell other).kept with
  | none =>
      rw [hkept] at hrun
      exact hrefresh hrun
  | some kept =>
      rw [hkept] at hrun
      dsimp only at hrun ⊢
      split at hrun
      · rename_i hfresh
        cases hrun
        exact ⟨if_pos hfresh, rfl⟩
      · rename_i hstale
        rw [if_neg hstale]
        exact hrefresh hrun

end Declarations

namespace VariableTable

variable {t : VariableTable} {index : Nat} {v : VariableDecl} {outer : Lookups (Run σ)}

/-- Other variables come to the declaration only by its id. -/
theorem lookups_sparing (houter : (sparing index).Lookups outer outer)
    (hv : t.declarations[index]? = some v) (bound : Nat) :
    (sparing index).Lookups (t.lookups (outer.withholding v.id) bound) (t.lookups outer bound) := by
  induction bound with
  | zero =>
      exact houter.variables (fun _ => exhausted_sparing _) (fun _ => exhausted_sparing _)
  | succ bound ih =>
      -- A declaration with another id is not the one whose cell is to be spared.
      have hvalue (id : String) (hid : id ≠ v.id) :
          (sparing index).rel (t.value (t.lookups (outer.withholding v.id) bound) id)
            (t.value (t.lookups outer bound) id) := by
        apply t.value_related
        intro other w hw hasked
        have hother : other ≠ index := by
          rintro rfl
          cases hv.symm.trans hw
          exact hid hasked.symm
        exact ⟨w.holds_sparing hother ih, w.current_sparing hother ih⟩
      apply houter.variables
      · intro id
        by_cases hid : id = v.id
        · have hwithheld : (outer.withholding v.id).variableText id = Run.exhausted := if_pos hid
          rw [hwithheld]
          exact exhausted_sparing _
        · have hgiven : (outer.withholding v.id).variableText id = outer.variableText id :=
            if_neg hid
          rw [hgiven]
          apply (sparing index).rel_bind (houter.variableText id)
          intro text?
          cases text? with
          | some text => exact (sparing index).rel_pure (some text)
          | none =>
              apply (sparing index).rel_bind (hvalue id hid)
              exact fun value => (sparing index).rel_pure (value.map Value.asText)
      · intro id
        by_cases hid : id = v.id
        · have hwithheld : (outer.withholding v.id).variableValue id = Run.exhausted := if_pos hid
          rw [hwithheld]
          exact exhausted_sparing _
        · have hgiven : (outer.withholding v.id).variableValue id = outer.variableValue id :=
            if_neg hid
          rw [hgiven]
          apply (sparing index).rel_bind (houter.variableValue id)
          intro value?
          cases value? with
          | some value => exact (sparing index).rel_pure (some value)
          | none => exact hvalue id hid

/-- An evaluation that ends without asking for the id of the declaration, at any depth, spares
it. -/
theorem sparesItself_of_withholding (houter : (sparing index).Lookups outer outer)
    (hv : t.declarations[index]? = some v) {bound : Nat} {cells : Cells} {st : σ}
    (hends : (v.compute (t.lookups (outer.withholding v.id) bound)
      (cells.setFlag index true) st).isSome) :
    v.SparesItself (t.lookups outer bound) index cells st := by
  intro value after st' hrun
  obtain ⟨⟨⟨value', after'⟩, st''⟩, hwithheld⟩ := Option.isSome_iff_exists.mp hends
  obtain ⟨hsame, hspared⟩ := (lookups_sparing houter hv bound).compute v _ st _ _ _ hwithheld
  cases hrun.symm.trans hsame
  exact hspared

end VariableTable

end PanelSkin
