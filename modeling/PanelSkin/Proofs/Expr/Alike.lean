import PanelSkin.Proofs.Expr.Guard

/-!
Evaluations that come out alike. Two computations that make no difference between the valid states
beyond the cells lead from the same cells to the same value and the same cells, or both to
nothing. Variables are looked up in this way if everything is that their declarations look up. And
where no variable keeps its value, looking one up leaves the cells as they were.
-/

namespace PanelSkin

variable {σ α : Type} {valid : σ → Prop} {steady : Prop}

/-- From the same cells and any two valid states either both computations have no outcome, or they
return the same, leave the same cells and valid states. If `steady`, these are the cells from
before. -/
def alike (valid : σ → Prop) (steady : Prop) : Correspondence (Run σ) (Run σ) where
  rel x y := ∀ cells st st', valid st → valid st' →
    (x cells st = none ∧ y cells st' = none) ∨
      ∃ a after s s', valid s ∧ valid s' ∧ (steady → after = cells) ∧
        x cells st = some ((a, after), s) ∧ y cells st' = some ((a, after), s')
  rel_pure a cells st st' h h' := .inr ⟨a, cells, st, st', h, h', fun _ => rfl, rfl, rfl⟩
  rel_bind {α β x y f g} hxy hfg cells st st' h h' := by
    rw [Run.bind_run, Run.bind_run]
    rcases hxy cells st st' h h' with ⟨hx, hy⟩ | ⟨a, between, s, s', hs, hs', hfirst, hx, hy⟩
    · exact .inl ⟨by rw [hx]; rfl, by rw [hy]; rfl⟩
    · rw [hx, hy]
      rcases hfg a between s s' hs hs' with
        ⟨hf, hg⟩ | ⟨b, after, t, t', ht, ht', hsecond, hf, hg⟩
      · exact .inl ⟨hf, hg⟩
      · have hsame (hsteady : steady) : after = cells :=
          (hsecond hsteady).trans (hfirst hsteady)
        exact .inr ⟨b, after, t, t', ht, ht', hsame, hf, hg⟩

theorem exhausted_alike : (alike valid steady).rel (Run.exhausted : Run σ α) Run.exhausted :=
  fun _ _ _ _ _ => .inl ⟨rfl, rfl⟩

theorem guarded_alike {index : Nat} {fallback : α} {x y : Run σ α}
    (h : (alike valid steady).rel x y) :
    (alike valid steady).rel (guarded index fallback x) (guarded index fallback y) := by
  intro cells st st' hst hst'
  rw [guarded_run, guarded_run]
  cases hflag : (cells.cell index).evaluating with
  | true => exact .inr ⟨fallback, cells, st, st', hst, hst', fun _ => rfl, rfl, rfl⟩
  | false =>
      rcases h (cells.setFlag index true) st st' hst hst' with
        ⟨hx, hy⟩ | ⟨a, after, s, s', hs, hs', hsame, hx, hy⟩
      · exact .inl ⟨by simp [hx], by simp [hy]⟩
      · have hlowered (hsteady : steady) : after.setFlag index false = cells := by
          rw [hsame hsteady, Cells.setFlag_setFlag hflag]
        exact .inr ⟨a, _, s, s', hs, hs', hlowered, by simp [hx], by simp [hy]⟩

section Declarations

variable {l k : Lookups (Run σ)}

theorem VariableDecl.holds_alike (v : VariableDecl) (h : (alike valid steady).Lookups l k)
    (index : Nat) : (alike valid steady).rel (v.holds l index) (v.holds k index) := by
  unfold VariableDecl.holds
  cases v.condition with
  | none => exact (alike valid steady).rel_pure true
  | some condition => exact guarded_alike (h.evaluateBool condition)

theorem VariableDecl.refresh_alike (v : VariableDecl) (hpolicy : steady → v.policy = .always)
    (h : (alike valid steady).Lookups l k) (index : Nat) :
    (alike valid steady).rel (v.refresh l index) (v.refresh k index) := by
  intro cells st st' hst hst'
  rw [v.refresh_run, v.refresh_run, h.clock]
  have hguarded : (alike valid steady).rel (guarded index (.boolean false) (v.compute l))
      (guarded index (.boolean false) (v.compute k)) := guarded_alike (h.compute v)
  rcases hguarded cells st st' hst hst' with
    ⟨hx, hy⟩ | ⟨value, after, s, s', hs, hs', hsame, hx, hy⟩
  · exact .inl ⟨by rw [hx]; rfl, by rw [hy]; rfl⟩
  · have hkept (hsteady : steady) : v.keep k.clock.now index value after = cells := by
      rw [keep, if_pos (hpolicy hsteady), hsame hsteady]
    exact .inr ⟨value, _, s, s', hs, hs', hkept, by rw [hx]; rfl, by rw [hy]; rfl⟩

theorem VariableDecl.current_alike (v : VariableDecl) (hpolicy : steady → v.policy = .always)
    (h : (alike valid steady).Lookups l k) (index : Nat) :
    (alike valid steady).rel (v.current l index) (v.current k index) := by
  intro cells st st' hst hst'
  have hrefresh := v.refresh_alike hpolicy h index cells st st' hst hst'
  rw [v.current_run, v.current_run, h.clock]
  cases (cells.cell index).kept with
  | none => exact hrefresh
  | some kept =>
      dsimp only
      split
      · exact .inr ⟨kept.value, cells, st, st', hst, hst', fun _ => rfl, rfl, rfl⟩
      · exact hrefresh

/-- Variables come out alike if what their declarations look up does. -/
theorem VariableTable.value_alike (t : VariableTable)
    (hpolicy : steady → ∀ v ∈ t.declarations, v.policy = .always)
    (h : (alike valid steady).Lookups l k) (id : String) :
    (alike valid steady).rel (t.value l id) (t.value k id) := by
  apply t.value_related
  intro index v hv _
  have halways (hsteady : steady) : v.policy = .always :=
    hpolicy hsteady v (List.mem_of_getElem? hv)
  exact ⟨v.holds_alike h index, v.current_alike halways h index⟩

end Declarations

/-- The cells are these, and the further state is valid. -/
def Cells.Still (cells : Cells) (valid : σ → Prop) (after : Cells) (st : σ) : Prop :=
  after = cells ∧ valid st

/-- A computation that is alike to itself and returns from one valid state returns the same from
every other. -/
theorem exists_steadily_of_alike {x : Run σ α} (h : (alike valid True).rel x x) {cells : Cells}
    {st : σ} (hst : valid st) (hreturns : (x cells st).isSome = true) :
    ∃ a, (steadily (cells.Still valid)).rel a x := by
  rcases h cells st st hst hst with ⟨hx, -⟩ | ⟨a, after, s, s', -, -, -, hx, -⟩
  · simp [hx] at hreturns
  · refine ⟨a, ?_⟩
    rintro _ st' ⟨rfl, hst'⟩
    rcases h _ st st' hst hst' with ⟨hnone, -⟩ | ⟨b, after', s, s'', -, hs'', hsame, hb, hrun⟩
    · cases hx.symm.trans hnone
    · cases hx.symm.trans hb
      exact ⟨after, s'', ⟨hsame trivial, hs''⟩, hrun⟩

end PanelSkin
