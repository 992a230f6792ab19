import Mathlib.Data.List.Basic
import PanelSkin.Proofs.Expr.Correspondence
import PanelSkin.Expr.Variable

/-!
The guard against cycles, step by step. Of the cells the guard sees only which flags are up. It
raises the flag of one declaration for the time of an evaluation, so that fewer flags are down
in it, and lowers the flag again.
-/

namespace PanelSkin

namespace Cells

/-- Which declarations are being evaluated, in declaration order. -/
def flags (cells : Cells) : List Bool := cells.map (·.evaluating)

def setFlag (cells : Cells) (index : Nat) (up : Bool) : Cells :=
  cells.modify index ({ · with evaluating := up })

theorem evaluating_cell (cells : Cells) (index : Nat) :
    (cells.cell index).evaluating = cells.flags[index]?.getD false := by
  simp only [cell, flags, List.getElem?_map]
  cases cells[index]? <;> rfl

theorem flags_modify (cells : Cells) (index : Nat) {change : VariableCell → VariableCell}
    {flag : Bool → Bool} (h : ∀ c, (change c).evaluating = flag c.evaluating) :
    flags (cells.modify index change) = cells.flags.modify index flag := by
  apply List.ext_getElem?
  intro i
  simp only [flags, List.getElem?_map, List.getElem?_modify]
  cases cells[i]? with
  | none => rfl
  | some c =>
      by_cases hi : index = i
      · simp [hi, h]
      · simp [hi]

theorem flags_setFlag (cells : Cells) (index : Nat) (up : Bool) :
    (cells.setFlag index up).flags = cells.flags.set index up := by
  rw [List.set_eq_modify]
  exact flags_modify cells index fun _ => rfl

/-- Lowering a flag that was down before it was raised leaves no trace. -/
theorem setFlag_setFlag {cells : Cells} {index : Nat}
    (hdown : (cells.cell index).evaluating = false) :
    (cells.setFlag index true).setFlag index false = cells := by
  simp only [setFlag, List.modify_modify_eq]
  apply List.ext_getElem?
  intro i
  rw [List.getElem?_modify]
  by_cases hi : index = i
  · subst hi
    cases hcell : cells[index]? with
    | none => rfl
    | some c =>
        have hc : c.evaluating = false := by simpa [cell, hcell] using hdown
        simp [← hc]
  · simp [hi]

end Cells

theorem count_set_true {flags : List Bool} {index : Nat} (hdown : flags[index]? = some false) :
    (flags.set index true).count false < flags.count false := by
  obtain ⟨hlt, hfalse⟩ := List.getElem?_eq_some_iff.mp hdown
  have hmem : false ∈ flags := hfalse ▸ List.getElem_mem hlt
  have hpos : 0 < flags.count false := List.count_pos_iff.mpr hmem
  rw [List.count_set hlt]
  simp [hfalse]
  omega

instance Run.lawfulMonad (σ : Type) : LawfulMonad (Run σ) := inferInstance

theorem Run.bind_run {σ α β : Type} (x : Run σ α) (f : α → Run σ β) (cells : Cells) (st : σ) :
    (x >>= f) cells st = (x cells st).bind fun ((a, after), st') => f a after st' := rfl

/-- Every outcome of a run satisfies `P`. -/
structure Run.Ensures {σ α : Type} (x : Run σ α) (P : α → Prop) : Prop where
  of_run : ∀ cells st a after st', x cells st = some ((a, after), st') → P a

namespace Run.Ensures

variable {σ α β : Type} {x : Run σ α} {P : α → Prop} {Q : β → Prop}

theorem pure {a : α} (h : P a) : Ensures (Pure.pure a : Run σ α) P where
  of_run _ _ _ _ _ hrun := by
    cases hrun
    exact h

theorem bind {f : α → Run σ β} (hx : Ensures x P) (hf : ∀ a, P a → Ensures (f a) Q) :
    Ensures (x >>= f) Q where
  of_run cells st b after st' hrun := by
    rw [Run.bind_run] at hrun
    obtain ⟨⟨⟨a, between⟩, middle⟩, hfirst, hsecond⟩ := Option.bind_eq_some_iff.mp hrun
    have ha := hx.of_run cells st a between middle hfirst
    exact (hf a ha).of_run between middle b after st' hsecond

theorem anyway (x : Run σ α) : Ensures x fun _ => True where
  of_run _ _ _ _ _ _ := trivial

theorem imp {P' : α → Prop} (hx : Ensures x P) (h : ∀ a, P a → P' a) : Ensures x P' where
  of_run cells st a after st' hrun := h a (hx.of_run cells st a after st' hrun)

end Run.Ensures

/-- From every state with some property the computation returns this value, and it keeps the
property. -/
def steadily {σ : Type} (valid : Cells → σ → Prop) : Correspondence Id (Run σ) where
  rel value x := ∀ cells st, valid cells st →
    ∃ after st', valid after st' ∧ x cells st = some ((value, after), st')
  rel_pure a cells st hvalid := ⟨cells, st, hvalid, rfl⟩
  rel_bind {α β x y f g} hxy hfg cells st hvalid := by
    obtain ⟨between, st', hbetween, hy⟩ := hxy cells st hvalid
    obtain ⟨after, st'', hafter, hg⟩ := hfg x between st' hbetween
    exact ⟨after, st'', hafter, by rw [Run.bind_run, hy]; exact hg⟩

section Guarded

variable {σ α : Type} {index : Nat} {fallback : α} {action : Run σ α} {cells : Cells} {st : σ}

theorem guarded_run : guarded index fallback action cells st =
    if (cells.cell index).evaluating then some ((fallback, cells), st)
    else (action (cells.setFlag index true) st).map
      fun ((a, after), st') => ((a, after.setFlag index false), st') := by
  unfold guarded
  change (if (cells.cell index).evaluating then _ else _ : Run σ α) cells st = _
  split
  · rfl
  · change (action (cells.setFlag index true) st).bind _ = _
    cases action (cells.setFlag index true) st <;> rfl

end Guarded

section Compute

variable {m n : Type → Type} [Monad m] [Monad n] [LawfulMonad m] [LawfulMonad n]
  {R : Correspondence m n} {l : PanelSkin.Lookups m} {k : PanelSkin.Lookups n}
  {names : Name → Prop}

/-- A text may be read as a template, and then name any variable. -/
theorem Correspondence.LookupsOn.compute (h : R.LookupsOn names l k) (v : VariableDecl)
    (hvalue : ∀ name, v.value.Names name → names name)
    (hvariables : ∀ id, names (.variable id)) : R.rel (v.compute l) (v.compute k) := by
  apply R.rel_bind (h.evaluateOr (.boolean false) hvalue)
  intro value
  cases value with
  | number n => exact R.rel_pure _
  | boolean b => exact R.rel_pure _
  | text text =>
      dsimp only
      split
      · apply R.rel_bind (h.parseTemplate text hvariables)
        intro parsed
        cases parsed with
        | ok template => exact h.template template fun id _ => hvariables id
        | error cause => exact R.rel_pure _
      · exact R.rel_pure _

theorem Correspondence.Lookups.compute (h : R.Lookups l k) (v : VariableDecl) :
    R.rel (v.compute l) (v.compute k) :=
  (h.on fun _ => True).compute v (fun _ _ => trivial) fun _ => trivial

end Compute

variable {σ : Type} {lookups : Lookups (Run σ)}

namespace VariableDecl

def keep (v : VariableDecl) (now : Nat) (index : Nat) (value : Value) (cells : Cells) : Cells :=
  if v.policy = .always then cells
  else cells.modify index ({ · with kept := some ⟨value, now⟩ })

theorem flags_keep (v : VariableDecl) (now index : Nat) (value : Value) (cells : Cells) :
    (v.keep now index value cells).flags = cells.flags := by
  unfold keep
  split
  · rfl
  · exact (Cells.flags_modify cells index fun _ => rfl).trans (List.modify_id index cells.flags)

theorem refresh_run (v : VariableDecl) (index : Nat) (cells : Cells) (st : σ) :
    v.refresh lookups index cells st =
      (guarded index (.boolean false) (v.compute lookups) cells st).map
        fun ((value, after), st') =>
          ((value, v.keep lookups.clock.now index value after), st') := by
  unfold refresh
  change (guarded index (.boolean false) (v.compute lookups) cells st).bind _ = _
  cases guarded index (.boolean false) (v.compute lookups) cells st with
  | none => rfl
  | some outcome =>
      by_cases hpolicy : v.policy = .always
      · simp [keep, hpolicy]
        rfl
      · simp [keep, hpolicy]
        rfl

theorem current_run (v : VariableDecl) (index : Nat) (cells : Cells) (st : σ) :
    v.current lookups index cells st =
      match (cells.cell index).kept with
      | some kept =>
        if v.policy.isFresh lookups.clock kept.time then some ((kept.value, cells), st)
        else v.refresh lookups index cells st
      | none => v.refresh lookups index cells st := by
  unfold current
  change (match (cells.cell index).kept with
    | some kept => _
    | none => _ : Run σ Value) cells st = _
  cases (cells.cell index).kept with
  | none => rfl
  | some kept =>
    dsimp only
    split <;> rfl

end VariableDecl

namespace VariableTable

/-- The value of the first of some declarations that has the id and applies; `index` is that of
the first of them. -/
def valueFrom (lookups : Lookups (Run σ)) (id : String) (index : Nat) :
    List VariableDecl → Run σ (Option Value)
  | [] => pure none
  | v :: rest => do
    if v.id = id then
      if ← v.holds lookups index then return some (← v.current lookups index)
      else valueFrom lookups id (index + 1) rest
    else valueFrom lookups id (index + 1) rest

theorem value_eq_valueFrom (t : VariableTable) (id : String) :
    t.value lookups id = valueFrom lookups id 0 t.declarations := by
  unfold value select
  generalize 0 = index
  induction t.declarations generalizing index with
  | nil => rfl
  | cons v rest ih =>
      simp only [selectFrom, valueFrom]
      split
      · simp only [bind_assoc]
        congr 1
        funext applies
        cases applies with
        | true => rfl
        | false => exact ih (index + 1)
      · exact ih (index + 1)

/-- Values looked up in the table are related if the declarations with the id serve alike. -/
theorem value_related {R : Correspondence (Run σ) (Run σ)} {l k : Lookups (Run σ)} {id : String}
    (t : VariableTable)
    (h : ∀ (index : Nat) v, t.declarations[index]? = some v → v.id = id →
      R.rel (v.holds l index) (v.holds k index) ∧
        R.rel (v.current l index) (v.current k index)) :
    R.rel (t.value l id) (t.value k id) := by
  rw [t.value_eq_valueFrom, t.value_eq_valueFrom]
  suffices hfrom : ∀ declarations start, (∀ (i : Nat) v, declarations[i]? = some v →
      t.declarations[start + i]? = some v) →
        R.rel (valueFrom l id start declarations) (valueFrom k id start declarations) by
    apply hfrom
    intro i v hv
    rwa [Nat.zero_add]
  intro declarations
  induction declarations with
  | nil => exact fun _ _ => R.rel_pure none
  | cons v rest ih =>
      intro start hdeclared
      have hrest : R.rel (valueFrom l id (start + 1) rest) (valueFrom k id (start + 1) rest) := by
        apply ih
        intro i w hw
        have hlater := hdeclared (i + 1) w hw
        rwa [Nat.add_comm i 1, ← Nat.add_assoc] at hlater
      simp only [valueFrom]
      split
      · rename_i hid
        obtain ⟨hholds, hcurrent⟩ := h start v (hdeclared 0 v rfl) hid
        apply R.rel_bind hholds
        intro applies
        split
        · exact R.rel_bind hcurrent fun value => R.rel_pure (some value)
        · exact hrest
      · exact hrest

end VariableTable

end PanelSkin
