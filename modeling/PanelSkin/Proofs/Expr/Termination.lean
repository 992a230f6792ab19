import PanelSkin.Proofs.Expr.Guard

/-!
Evaluations return, however the variables refer to each other. With every level of nesting the
flag of one more declaration is up, and one that is met with its flag up is not evaluated. So
no evaluation nests deeper than there are declarations, whatever depth it is given, and each one
leaves the flags as it found them.
-/

namespace PanelSkin

variable {σ α : Type}

/-- The computation returns and leaves the cells alone. -/
def Run.Quiet (x : Run σ α) : Prop :=
  ∀ cells st, ∃ a st', x cells st = some ((a, cells), st')

/-- All lookups return, and none of them looks a variable of the table up. -/
structure Lookups.Quiet (l : Lookups (Run σ)) : Prop where
  variableText : ∀ id, (l.variableText id).Quiet
  token : ∀ t, (l.token t).Quiet
  variableValue : ∀ id, (l.variableValue id).Quiet
  translate : ∀ text, (l.translate text).Quiet
  fontMetric : ∀ id metric, (l.fontMetric id metric).Quiet
  textExtent : ∀ id text extent, (l.textExtent id text extent).Quiet
  pictureSize : ∀ path, (l.pictureSize path).Quiet
  feature : ∀ name, (l.feature name).Quiet

/-- Both computations return the same wherever just these flags are up, and leave them so. -/
def returning (flags : List Bool) : Correspondence (Run σ) (Run σ) where
  rel {α} x y := ∀ cells st, cells.flags = flags → ∃ (a : α) (after : Cells) (st' : σ),
    after.flags = flags ∧ x cells st = some ((a, after), st') ∧ y cells st = some ((a, after), st')
  rel_pure a cells st hflags := ⟨a, cells, st, hflags, rfl, rfl⟩
  rel_bind {α β x y f g} hxy hfg cells st hflags := by
    obtain ⟨a, between, st', hbetween, hx, hy⟩ := hxy cells st hflags
    obtain ⟨b, after, st'', hafter, hf, hg⟩ := hfg a between st' hbetween
    refine ⟨b, after, st'', hafter, ?_, ?_⟩
    · rw [Run.bind_run, hx]
      exact hf
    · rw [Run.bind_run, hy]
      exact hg

theorem Run.Quiet.returning {x : Run σ α} (h : x.Quiet) (flags : List Bool) :
    (returning flags).rel x x := by
  intro cells st hflags
  obtain ⟨a, st', hx⟩ := h cells st
  exact ⟨a, cells, st', hflags, hx, hx⟩

theorem Run.Quiet.pure (a : α) : Run.Quiet (pure a : Run σ α) :=
  fun _ st => ⟨a, st, rfl⟩

theorem Lookups.Quiet.fixed (world : Lookups Id) :
    (Lookups.fixed world : Lookups (Run σ)).Quiet where
  variableText _ := .pure _
  token _ := .pure _
  variableValue _ := .pure _
  translate _ := .pure _
  fontMetric _ _ := .pure _
  textExtent _ _ _ := .pure _
  pictureSize _ := .pure _
  feature _ := .pure _

theorem Lookups.Quiet.returning {l : Lookups (Run σ)} (h : l.Quiet) (flags : List Bool) :
    (returning flags).Lookups l l where
  tokenId := rfl
  variableText id := (h.variableText id).returning flags
  token t := (h.token t).returning flags
  variableValue id := (h.variableValue id).returning flags
  translate text := (h.translate text).returning flags
  fontMetric id metric := (h.fontMetric id metric).returning flags
  textExtent id text extent := (h.textExtent id text extent).returning flags
  pictureSize path := (h.pictureSize path).returning flags
  feature name := (h.feature name).returning flags
  clock := rfl

/-- A computation that returns has one outcome, shared by all that it agrees with. -/
theorem exists_outcome_of_returning {x : Run σ α} {cells : Cells}
    (hx : (returning cells.flags).rel x x) (st : σ) :
    ∃ a after st', after.flags = cells.flags ∧
      ∀ y, (returning cells.flags).rel x y → y cells st = some ((a, after), st') := by
  obtain ⟨a, after, st', hafter, hrun, -⟩ := hx cells st rfl
  refine ⟨a, after, st', hafter, ?_⟩
  intro y hxy
  obtain ⟨b, other, st'', -, hagain, hy⟩ := hxy cells st rfl
  rw [hy, ← hagain, hrun]

theorem guarded_returning {flags : List Bool} {index : Nat} (hindex : index < flags.length)
    {fallback : α} {x y : Run σ α}
    (h : flags[index]? = some false → (returning (flags.set index true)).rel x y) :
    (returning flags).rel (guarded index fallback x) (guarded index fallback y) := by
  intro cells st hflags
  rw [guarded_run, guarded_run, Cells.evaluating_cell, hflags]
  cases hflag : flags[index] with
  | true =>
      have hup : flags[index]? = some true := by rw [List.getElem?_eq_getElem hindex, hflag]
      exact ⟨fallback, cells, st, hflags, by simp [hup], by simp [hup]⟩
  | false =>
      have hdown : flags[index]? = some false := by
        rw [List.getElem?_eq_getElem hindex, hflag]
      have hraised : (cells.setFlag index true).flags = flags.set index true := by
        rw [Cells.flags_setFlag, hflags]
      obtain ⟨a, after, st', hafter, hx, hy⟩ := h hdown _ st hraised
      refine ⟨a, after.setFlag index false, st', ?_, by simp [hdown, hx], by simp [hdown, hy]⟩
      rw [Cells.flags_setFlag, hafter, List.set_set, ← hflag, List.set_getElem_self]

section Declarations

variable {flags : List Bool} {l k : Lookups (Run σ)}

/-- Both records of lookups serve the evaluation of a declaration alike. -/
structure VariableDecl.Served (v : VariableDecl) (flags : List Bool) (l k : Lookups (Run σ)) :
    Prop where
  condition : ∀ condition, v.condition = some condition →
    (returning flags).rel (condition.evaluateBool l) (condition.evaluateBool k)
  value : (returning flags).rel (v.compute l) (v.compute k)

theorem VariableDecl.served (v : VariableDecl) (h : (returning flags).Lookups l k) :
    v.Served flags l k where
  condition condition _ := h.evaluateBool condition
  value := h.compute v

theorem VariableDecl.holds_returning (v : VariableDecl) {index : Nat}
    (hindex : index < flags.length)
    (h : flags[index]? = some false → v.Served (flags.set index true) l k) :
    (returning flags).rel (v.holds l index) (v.holds k index) := by
  unfold VariableDecl.holds
  cases hcondition : v.condition with
  | none => exact (returning flags).rel_pure true
  | some condition =>
      apply guarded_returning hindex
      exact fun hdown => (h hdown).condition condition hcondition

theorem VariableDecl.current_returning (v : VariableDecl) {index : Nat}
    (hindex : index < flags.length) (hclock : l.clock = k.clock)
    (h : flags[index]? = some false → v.Served (flags.set index true) l k) :
    (returning flags).rel (v.current l index) (v.current k index) := by
  have hrefresh : (returning flags).rel (v.refresh l index) (v.refresh k index) := by
    intro cells st hflags
    have hguarded : (returning flags).rel (guarded index (.boolean false) (v.compute l))
        (guarded index (.boolean false) (v.compute k)) := by
      apply guarded_returning hindex
      exact fun hdown => (h hdown).value
    obtain ⟨value, after, st', hafter, hx, hy⟩ := hguarded cells st hflags
    refine ⟨value, v.keep k.clock.now index value after, st', ?_, ?_, ?_⟩
    · rw [v.flags_keep, hafter]
    · rw [v.refresh_run, hx, hclock]
      rfl
    · rw [v.refresh_run, hy]
      rfl
  intro cells st hflags
  rw [v.current_run, v.current_run, hclock]
  cases (cells.cell index).kept with
  | none => exact hrefresh cells st hflags
  | some kept =>
      dsimp only
      split
      · exact ⟨kept.value, cells, st, hflags, rfl, rfl⟩
      · exact hrefresh cells st hflags

end Declarations

theorem VariableTable.lookups_clock (t : VariableTable) (outer : Lookups (Run σ))
    (depth deeper : Nat) : (t.lookups outer depth).clock = (t.lookups outer deeper).clock := by
  cases depth <;> cases deeper <;> rfl

theorem VariableTable.value_returning_of_served (t : VariableTable) {flags : List Bool}
    (hflags : flags.length = t.size) {l k : Lookups (Run σ)} (hclock : l.clock = k.clock)
    {id : String} (h : ∀ v ∈ t.declarations, v.id = id → ∀ index : Nat,
      flags[index]? = some false → v.Served (flags.set index true) l k) :
    (returning flags).rel (t.value l id) (t.value k id) := by
  apply t.value_related
  intro index v hv hid
  obtain ⟨hlt, rfl⟩ := List.getElem?_eq_some_iff.mp hv
  have hindex : index < flags.length := hflags ▸ hlt
  have hserved := h _ (List.getElem_mem hlt) hid index
  exact ⟨VariableDecl.holds_returning _ hindex hserved,
    VariableDecl.current_returning _ hindex hclock hserved⟩

/-- Values looked up in the table agree when their lookups may nest as deep as flags are down. -/
theorem VariableTable.value_returning (t : VariableTable) {flags : List Bool}
    (hflags : flags.length = t.size) {l k : Lookups (Run σ)} (hclock : l.clock = k.clock)
    (h : ∀ index : Nat, flags[index]? = some false →
      (returning (flags.set index true)).Lookups l k) (id : String) :
    (returning flags).rel (t.value l id) (t.value k id) :=
  t.value_returning_of_served hflags hclock fun v _ _ index hdown => v.served (h index hdown)

/-- Lookups through the table agree as soon as they may nest deeper than flags are down. -/
theorem VariableTable.lookups_returning {outer : Lookups (Run σ)} (houter : outer.Quiet)
    (t : VariableTable) {flags : List Bool} (hflags : flags.length = t.size) {depth deeper : Nat}
    (hdepth : flags.count false < depth) (hdeeper : flags.count false < deeper) :
    (returning flags).Lookups (t.lookups outer depth) (t.lookups outer deeper) := by
  induction depth generalizing flags deeper with
  | zero => omega
  | succ depth ih =>
      cases deeper with
      | zero => omega
      | succ deeper =>
          have hclock := t.lookups_clock outer depth deeper
          have hvalue := t.value_returning hflags hclock fun index hdown => by
            have hfewer := count_set_true hdown
            exact ih (by simpa using hflags) (by omega) (by omega)
          simp only [lookups]
          apply (houter.returning flags).variables
          · intro id
            apply (returning flags).rel_bind ((houter.variableText id).returning flags)
            intro text
            cases text with
            | some text => exact (returning flags).rel_pure (some text)
            | none =>
                apply (returning flags).rel_bind (hvalue id)
                exact fun value => (returning flags).rel_pure (value.map Value.asText)
          · intro id
            apply (returning flags).rel_bind ((houter.variableValue id).returning flags)
            intro value
            cases value with
            | some value => exact (returning flags).rel_pure (some value)
            | none => exact hvalue id

/-- Every lookup of a variable and every evaluation of an expression returns, with an outcome that
no further level of nesting changes, and leaves the flags as they were. -/
theorem evaluation_returns {outer : Lookups (Run σ)} (houter : outer.Quiet) (t : VariableTable)
    {cells : Cells} (hcells : cells.length = t.size) (st : σ) :
    (∀ id, ∃ value after st', after.flags = cells.flags ∧ ∀ depth, t.size ≤ depth →
      t.value (t.lookups outer depth) id cells st = some ((value, after), st')) ∧
    ∀ e : Expr, ∃ outcome after st', after.flags = cells.flags ∧ ∀ depth, t.size < depth →
      (e.evaluate (t.lookups outer depth)).run cells st = some ((outcome, after), st') := by
  have hlength : cells.flags.length = t.size := by simpa [Cells.flags] using hcells
  have hcount : cells.flags.count false ≤ t.size := hlength ▸ List.count_le_length
  constructor
  · intro id
    have hagree (depth : Nat) (hdepth : t.size ≤ depth) : (returning cells.flags).rel
        (t.value (t.lookups outer t.size) id) (t.value (t.lookups outer depth) id) := by
      apply t.value_returning hlength (t.lookups_clock outer _ _)
      intro index hdown
      have hfewer := count_set_true hdown
      exact t.lookups_returning houter (by simpa using hlength) (by omega) (by omega)
    obtain ⟨value, after, st', hafter, hrun⟩ :=
      exists_outcome_of_returning (hagree t.size (Nat.le_refl _)) st
    exact ⟨value, after, st', hafter, fun depth hdepth => hrun _ (hagree depth hdepth)⟩
  · intro e
    have hagree (depth : Nat) (hdepth : t.size < depth) :
        (returning cells.flags).rel (e.evaluate (t.lookups outer (t.size + 1))).run
          (e.evaluate (t.lookups outer depth)).run := by
      have hlookups := t.lookups_returning houter hlength (Nat.lt_succ_of_le hcount)
        (Nat.lt_of_le_of_lt hcount hdepth)
      exact hlookups.evaluate e
    obtain ⟨outcome, after, st', hafter, hrun⟩ :=
      exists_outcome_of_returning (hagree _ (Nat.lt_succ_self _)) st
    exact ⟨outcome, after, st', hafter, fun depth hdepth => hrun _ (hagree depth hdepth)⟩

/-- Variables in circles: through a text that is read as a template, through a value, and through
the condition of a declaration that shares its id with another. -/
def circles : VariableTable where
  declarations := [
    { id := "a", value := .text (.literal "#b") },
    { id := "b", value := .number 1, condition := some (.reference "b"), policy := .once },
    { id := "b", value := .call .add [.reference "a", .number 7], policy := .tick }]

/-- Asked for `a`, the evaluation meets `b` again in the condition of `b`, and `a` below it. -/
theorem evaluation_returns_in_circles :
    (Lookups.fixed emptyWorld : Lookups (Run Unit)).Quiet ∧
      (List.replicate 3 default : Cells).length = circles.size ∧
      ∃ after st', after.flags = [false, false, false] ∧ ∀ depth, 3 ≤ depth →
        circles.value (circles.lookups (.fixed emptyWorld) depth) "a"
          (List.replicate 3 default) () = some ((some (.text "1"), after), st') := by
  have hquiet : (Lookups.fixed emptyWorld : Lookups (Run Unit)).Quiet := .fixed emptyWorld
  refine ⟨hquiet, rfl, ?_⟩
  have hcells : (List.replicate 3 default : Cells).length = circles.size := rfl
  obtain ⟨value, after, st', hafter, hrun⟩ := (evaluation_returns hquiet circles hcells ()).1 "a"
  have hvalue : (circles.value (circles.lookups (.fixed emptyWorld) 3) "a"
      (List.replicate 3 default) ()).map (·.1.1) = some (some (.text "1")) := by rfl
  rw [hrun 3 (Nat.le_refl 3)] at hvalue
  obtain rfl : value = some (.text "1") := Option.some.inj hvalue
  exact ⟨after, st', hafter, hrun⟩

end PanelSkin
