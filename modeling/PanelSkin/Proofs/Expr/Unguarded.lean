import Mathlib.Data.Nat.Find
import PanelSkin.Proofs.Expr.Guard

/-!
Variables without the guard. Under plain recursion a variable in a circle has no value. Where the
plain recursion ends the guard changes nothing: a declaration met again while it is being
evaluated would be evaluated again below itself, and so could not have ended with less.
-/

namespace PanelSkin

variable {σ α : Type}

section Plain

variable {m : Type → Type} [Monad m]

/-- Whether the declaration has no condition, or a true one. -/
def VariableDecl.applies (lookups : Lookups m) (v : VariableDecl) : m Bool :=
  match v.condition with
  | none => pure true
  | some condition => condition.evaluateBool lookups

namespace VariableTable

/-- The value of the first of some declarations that has the id and applies. -/
def plainValueFrom (lookups : Lookups m) (id : String) : List VariableDecl → m (Option Value)
  | [] => pure none
  | v :: rest => do
    if v.id = id then
      if ← v.applies lookups then return some (← v.compute lookups)
      else plainValueFrom lookups id rest
    else plainValueFrom lookups id rest

def plainValue (lookups : Lookups m) (t : VariableTable) (id : String) : m (Option Value) :=
  plainValueFrom lookups id t.declarations

/-- Lookups in which variables that the world does not know come from the table by recursion
without a guard. There is no outcome where the recursion goes deeper than `fuel`. -/
def plainLookups (world : Lookups Id) (t : VariableTable) : Nat → Lookups Option
  | 0 =>
    { Lookups.fixed world with
      variableText := fun _ => none
      variableValue := fun _ => none }
  | fuel + 1 =>
    let inner := plainLookups world t fuel
    { Lookups.fixed world with
      variableText := fun id =>
        match world.variableText id with
        | some text => some (some text)
        | none => do return (← t.plainValue inner id).map Value.asText
      variableValue := fun id =>
        match world.variableValue id with
        | some value => some (some value)
        | none => t.plainValue inner id }

end VariableTable

end Plain

/-! More fuel changes no outcome. -/

/-- The second computation ends as the first does, if that ends. -/
def extending : Correspondence Option Option where
  rel x y := ∀ a, x = some a → y = some a
  rel_pure a b h := h
  rel_bind {α β x y f g} hxy hfg b hb := by
    obtain ⟨a, hx, hf⟩ := Option.bind_eq_some_iff.mp hb
    exact Option.bind_eq_some_iff.mpr ⟨a, hxy a hx, hfg a b hf⟩

section Related

variable {m n : Type → Type} [Monad m] [Monad n] [LawfulMonad m] [LawfulMonad n]
  {R : Correspondence m n} {l : PanelSkin.Lookups m} {k : PanelSkin.Lookups n}

theorem Correspondence.Lookups.applies (h : R.Lookups l k) (v : VariableDecl) :
    R.rel (v.applies l) (v.applies k) := by
  unfold VariableDecl.applies
  cases v.condition with
  | none => exact R.rel_pure true
  | some condition => exact h.evaluateBool condition

theorem Correspondence.Lookups.plainValue (h : R.Lookups l k) (t : VariableTable) (id : String) :
    R.rel (t.plainValue l id) (t.plainValue k id) := by
  unfold VariableTable.plainValue
  induction t.declarations with
  | nil => exact R.rel_pure none
  | cons v rest ih =>
      simp only [VariableTable.plainValueFrom]
      split
      · apply R.rel_bind (h.applies v)
        intro applies
        split
        · exact R.rel_bind (h.compute v) fun value => R.rel_pure (some value)
        · exact ih
      · exact ih

end Related

theorem VariableTable.plainLookups_extending (world : Lookups Id) (t : VariableTable)
    (fuel : Nat) :
    extending.Lookups (t.plainLookups world fuel) (t.plainLookups world (fuel + 1)) := by
  induction fuel with
  | zero =>
      simp only [plainLookups]
      apply (Correspondence.Lookups.fixed world).variables
      · intro id text h
        cases h
      · intro id value h
        cases h
  | succ fuel ih =>
      rw [plainLookups, plainLookups]
      apply (Correspondence.Lookups.fixed world).variables
      · intro id
        cases world.variableText id with
        | some text => exact extending.rel_pure (some text)
        | none =>
            apply extending.rel_bind (ih.plainValue t id)
            exact fun value => extending.rel_pure (value.map Value.asText)
      · intro id
        cases world.variableValue id with
        | some value => exact extending.rel_pure (some value)
        | none => exact ih.plainValue t id

section Fuel

variable {x : Nat → Option α} {fuel : Nat} {a : α}

theorem outcome_of_le (hmono : ∀ fuel a, x fuel = some a → x (fuel + 1) = some a)
    (h : x fuel = some a) {more : Nat} (hle : fuel ≤ more) : x more = some a := by
  induction more, hle using Nat.le_induction with
  | base => exact h
  | succ more _ ih => exact hmono more a ih

/-- What has an outcome with some fuel has it with a least amount. -/
theorem exists_least_fuel (hmono : ∀ fuel a, x fuel = some a → x (fuel + 1) = some a)
    (h : x fuel = some a) : ∃ least ≤ fuel, x least = some a ∧ ∀ less < least, x less = none := by
  have hends : ∃ fuel, (x fuel).isSome := ⟨fuel, by simp [h]⟩
  obtain ⟨b, hb⟩ := Option.isSome_iff_exists.mp (Nat.find_spec hends)
  have hle : Nat.find hends ≤ fuel := Nat.find_min' hends (by simp [h])
  obtain rfl : b = a := Option.some.inj ((outcome_of_le hmono hb hle).symm.trans h)
  refine ⟨Nat.find hends, hle, hb, ?_⟩
  intro less hless
  simpa using Nat.find_min hends hless

end Fuel

/-! Where the plain recursion ends, so does the guarded one, with the same outcome. -/

variable {valid : σ → Prop}

/-- If the plain computation ends, the guarded one returns the same wherever just these flags are
up. It leaves no trace in the cells, and keeps the further state valid. -/
def plainly (valid : σ → Prop) (flags : List Bool) : Correspondence Option (Run σ) where
  rel x y := ∀ a, x = some a → ∀ cells st, cells.flags = flags → valid st →
    ∃ st', valid st' ∧ y cells st = some ((a, cells), st')
  rel_pure a b h cells st _ hvalid := ⟨st, hvalid, by cases h; rfl⟩
  rel_bind {α β x y f g} hxy hfg b hb cells st hflags hvalid := by
    obtain ⟨a, hx, hf⟩ := Option.bind_eq_some_iff.mp hb
    obtain ⟨st', hvalid', hy⟩ := hxy a hx cells st hflags hvalid
    obtain ⟨st'', hvalid'', hg⟩ := hfg a b hf cells st' hflags hvalid'
    exact ⟨st'', hvalid'', by rw [Run.bind_run, hy]; exact hg⟩

/-- The computation returns this value in every valid state. It leaves the cells alone, and keeps
the further state valid. -/
def constantly (valid : σ → Prop) : Correspondence Id (Run σ) where
  rel value x := ∀ cells st, valid st → ∃ st', valid st' ∧ x cells st = some ((value, cells), st')
  rel_pure a cells st hvalid := ⟨st, hvalid, rfl⟩
  rel_bind {α β x y f g} hxy hfg cells st hvalid := by
    obtain ⟨st', hvalid', hy⟩ := hxy cells st hvalid
    obtain ⟨st'', hvalid'', hg⟩ := hfg x cells st' hvalid'
    exact ⟨st'', hvalid'', by rw [Run.bind_run, hy]; exact hg⟩

/-- A computation that always returns the same can be made before what depends on it. -/
theorem plainly_of_constantly {β : Type} {flags : List Bool} {value : β} {x : Run σ β}
    (hx : (constantly valid).rel value x) {y : Option α} {g : β → Run σ α}
    (h : (plainly valid flags).rel y (g value)) : (plainly valid flags).rel y (x >>= g) := by
  intro a ha cells st hflags hvalid
  obtain ⟨st', hvalid', hrun⟩ := hx cells st hvalid
  obtain ⟨st'', hvalid'', hg⟩ := h a ha cells st' hflags hvalid'
  exact ⟨st'', hvalid'', by rw [Run.bind_run, hrun]; exact hg⟩

theorem Correspondence.Lookups.toPlainly {world : PanelSkin.Lookups Id}
    {outer : PanelSkin.Lookups (Run σ)} (h : (constantly valid).Lookups world outer)
    (flags : List Bool) : (plainly valid flags).Lookups (.fixed world) outer := by
  have hreturns {β : Type} {value : β} {x : Run σ β} (hx : (constantly valid).rel value x) :
      (plainly valid flags).rel (some value) x := by
    intro a ha cells st _
    cases ha
    exact hx cells st
  constructor
  · exact h.tokenId
  · exact fun id => hreturns (h.variableText id)
  · exact fun t => hreturns (h.token t)
  · exact fun id => hreturns (h.variableValue id)
  · exact fun text => hreturns (h.translate text)
  · exact fun id metric => hreturns (h.fontMetric id metric)
  · exact fun id text extent => hreturns (h.textExtent id text extent)
  · exact fun path => hreturns (h.pictureSize path)
  · exact fun name => hreturns (h.feature name)
  · exact h.clock

theorem guarded_plainly {flags : List Bool} {index : Nat} (hdown : flags[index]? = some false)
    {fallback : α} {x : Option α} {y : Run σ α}
    (h : (plainly valid (flags.set index true)).rel x y) :
    (plainly valid flags).rel x (guarded index fallback y) := by
  intro a hx cells st hflags hvalid
  have hcell : (cells.cell index).evaluating = false := by
    rw [Cells.evaluating_cell, hflags, hdown]
    rfl
  have hraised : (cells.setFlag index true).flags = flags.set index true := by
    rw [Cells.flags_setFlag, hflags]
  obtain ⟨st', hvalid', hy⟩ := h a hx _ st hraised hvalid
  refine ⟨st', hvalid', ?_⟩
  rw [guarded_run, if_neg (by simp [hcell]), hy]
  simp [Cells.setFlag_setFlag hcell]

namespace VariableDecl

variable {flags : List Bool} {l : Lookups Option} {k : Lookups (Run σ)} {index : Nat}

theorem holds_plainly (v : VariableDecl) (hdown : flags[index]? = some false)
    (h : (plainly valid (flags.set index true)).Lookups l k) :
    (plainly valid flags).rel (v.applies l) (v.holds k index) := by
  unfold applies holds
  cases v.condition with
  | none => exact (plainly valid flags).rel_pure true
  | some condition => exact guarded_plainly hdown (h.evaluateBool condition)

theorem current_plainly (v : VariableDecl) (hpolicy : v.policy = .always)
    (hdown : flags[index]? = some false) (h : (plainly valid (flags.set index true)).Lookups l k) :
    (plainly valid flags).rel (v.compute l) (v.current k index) := by
  intro value hvalue cells st hflags hvalid
  have hguarded : (plainly valid flags).rel (v.compute l)
      (guarded index (.boolean false) (v.compute k)) := guarded_plainly hdown (h.compute v)
  obtain ⟨st', hvalid', hrun⟩ := hguarded value hvalue cells st hflags hvalid
  have hrefresh : v.refresh k index cells st = some ((value, cells), st') := by
    rw [v.refresh_run, hrun]
    simp [keep, hpolicy]
  refine ⟨st', hvalid', ?_⟩
  rw [v.current_run]
  cases (cells.cell index).kept with
  | none => exact hrefresh
  | some kept => simpa [hpolicy, Policy.isFresh] using hrefresh

/-- With these lookups it is settled whether the declaration applies, and its value if it
does. -/
def Ends (l : Lookups Option) (v : VariableDecl) : Prop :=
  ∃ applies, v.applies l = some applies ∧
    (applies = true → ∃ value, v.compute l = some value)

end VariableDecl

/-- The second computation needs to follow the first only where the first goes on to an end. -/
theorem plainly_bind {β : Type} {flags : List Bool} {x : Option α} {y : Run σ α}
    {f : α → Option β} {g : α → Run σ β}
    (h : ∀ a b, x = some a → f a = some b →
      (plainly valid flags).rel x y ∧ (plainly valid flags).rel (f a) (g a)) :
    (plainly valid flags).rel (x >>= f) (y >>= g) := by
  intro b hb cells st hflags hvalid
  obtain ⟨a, hx, hf⟩ := Option.bind_eq_some_iff.mp hb
  obtain ⟨hxy, hfg⟩ := h a b hx hf
  obtain ⟨st', hvalid', hy⟩ := hxy a hx cells st hflags hvalid
  obtain ⟨st'', hvalid'', hg⟩ := hfg b hf cells st' hflags hvalid'
  exact ⟨st'', hvalid'', by rw [Run.bind_run, hy]; exact hg⟩

section Declarations

variable {flags : List Bool} {l : Lookups Option} {k : Lookups (Run σ)}

/-- With the declaration at an index the guard changes nothing. -/
def VariableDecl.Follows (valid : σ → Prop) (flags : List Bool) (l : Lookups Option)
    (k : Lookups (Run σ)) (index : Nat) (v : VariableDecl) : Prop :=
  (plainly valid flags).rel (v.applies l) (v.holds k index) ∧
    (v.applies l = some true → (plainly valid flags).rel (v.compute l) (v.current k index))

/-- A declaration that is met is settled if the plain recursion ends, so only the settled ones
have to follow it. -/
theorem VariableTable.valueFrom_plainly (id : String) (declarations : List VariableDecl)
    (index : Nat)
    (h : ∀ (i : Nat) (v : VariableDecl), declarations[i]? = some v → v.Ends l →
      v.Follows valid flags l k (index + i)) :
    (plainly valid flags).rel (plainValueFrom l id declarations)
      (valueFrom k id index declarations) := by
  induction declarations generalizing index with
  | nil => exact (plainly valid flags).rel_pure none
  | cons v rest ih =>
      have hrest : (plainly valid flags).rel (plainValueFrom l id rest)
          (valueFrom k id (index + 1) rest) := by
        apply ih
        intro i w hw hends
        have hfollows := h (i + 1) w (by simpa using hw) hends
        rwa [show index + (i + 1) = index + 1 + i by omega] at hfollows
      simp only [plainValueFrom, valueFrom]
      split
      · apply plainly_bind
        intro applies result happlies hresult
        cases applies with
        | true =>
            obtain ⟨value, hvalue, -⟩ := Option.bind_eq_some_iff.mp hresult
            obtain ⟨hholds, hcurrent⟩ := h 0 v rfl ⟨true, happlies, fun _ => ⟨value, hvalue⟩⟩
            refine ⟨hholds, ?_⟩
            apply (plainly valid flags).rel_bind (hcurrent happlies)
            exact fun value => (plainly valid flags).rel_pure (some value)
        | false =>
            obtain ⟨hholds, -⟩ := h 0 v rfl ⟨false, happlies, by simp⟩
            exact ⟨hholds, hrest⟩
      · exact hrest

end Declarations

namespace VariableTable

variable {world : Lookups Id} {t : VariableTable} {flags : List Bool} {fuel : Nat}

/-- No declaration whose flag is up is settled by the plain recursion with less than this fuel. -/
def Pending (world : Lookups Id) (t : VariableTable) (flags : List Bool) (fuel : Nat) : Prop :=
  ∀ (index : Nat) (v : VariableDecl), t.declarations[index]? = some v →
    flags[index]? = some true → ∀ less < fuel, ¬ v.Ends (t.plainLookups world less)

theorem Pending.raise (h : t.Pending world flags fuel) {index : Nat} {v : VariableDecl}
    (hv : t.declarations[index]? = some v) {least : Nat} (hleast : least ≤ fuel)
    (hopen : ∀ less < least, ¬ v.Ends (t.plainLookups world less)) :
    t.Pending world (flags.set index true) least := by
  intro other w hw hup less hless
  by_cases hother : index = other
  · subst hother
    obtain rfl : v = w := Option.some.inj (hv.symm.trans hw)
    exact hopen less hless
  · rw [List.getElem?_set_ne hother] at hup
    exact h other w hw hup less (by omega)

theorem applies_extending (world : Lookups Id) (t : VariableTable) (v : VariableDecl)
    (fuel : Nat) (applies : Bool) (h : v.applies (t.plainLookups world fuel) = some applies) :
    v.applies (t.plainLookups world (fuel + 1)) = some applies :=
  (t.plainLookups_extending world fuel).applies v applies h

theorem compute_extending (world : Lookups Id) (t : VariableTable) (v : VariableDecl)
    (fuel : Nat) (value : Value) (h : v.compute (t.plainLookups world fuel) = some value) :
    v.compute (t.plainLookups world (fuel + 1)) = some value :=
  (t.plainLookups_extending world fuel).compute v value h

/-- A declaration that is settled is not under evaluation. The guard leaves it as it is, since
below it the least fuel will do, and with less it is not settled. -/
theorem follows_of_ends {k : Lookups (Run σ)} {index : Nat} {v : VariableDecl}
    (hlength : flags.length = t.size) (hpending : t.Pending world flags (fuel + 1))
    (hv : t.declarations[index]? = some v) (hpolicy : v.policy = .always)
    (hends : v.Ends (t.plainLookups world fuel))
    (hbelow : flags[index]? = some false → ∀ least ≤ fuel,
      t.Pending world (flags.set index true) least →
        (plainly valid (flags.set index true)).Lookups (t.plainLookups world least) k) :
    v.Follows valid flags (t.plainLookups world fuel) k index := by
  have hlt : index < flags.length := by
    rw [hlength]
    exact (List.getElem?_eq_some_iff.mp hv).1
  have hdown : flags[index]? = some false := by
    rw [List.getElem?_eq_getElem hlt]
    cases hflag : flags[index] with
    | false => rfl
    | true =>
        have hup : flags[index]? = some true := by rw [List.getElem?_eq_getElem hlt, hflag]
        exact absurd hends (hpending index v hv hup fuel (Nat.lt_succ_self fuel))
  constructor
  · intro applies happlies
    obtain ⟨least, hleast, hat, hless⟩ := exists_least_fuel (t.applies_extending world v) happlies
    have hraised : t.Pending world (flags.set index true) least := by
      apply hpending.raise hv (Nat.le_succ_of_le hleast)
      rintro less hlt ⟨other, hother, -⟩
      simp [hless less hlt] at hother
    exact v.holds_plainly hdown (hbelow hdown least hleast hraised) applies hat
  · intro happlies value hvalue
    obtain ⟨least, hleast, hat, hless⟩ := exists_least_fuel (t.compute_extending world v) hvalue
    have hraised : t.Pending world (flags.set index true) least := by
      apply hpending.raise hv (Nat.le_succ_of_le hleast)
      rintro less hlt ⟨other, hother, hthen⟩
      have hsame := outcome_of_le (t.applies_extending world v) hother (by omega : less ≤ fuel)
      obtain rfl : other = true := Option.some.inj (hsame.symm.trans happlies)
      obtain ⟨early, hearly⟩ := hthen rfl
      simp [hless less hlt] at hearly
    exact v.current_plainly hpolicy hdown (hbelow hdown least hleast hraised) value hat

/-- A value looked up in the table follows the plain one if the lookups made below each
declaration do. -/
theorem value_plainly {k : Lookups (Run σ)} (hpolicy : ∀ v ∈ t.declarations, v.policy = .always)
    (hlength : flags.length = t.size) (hpending : t.Pending world flags (fuel + 1))
    (hbelow : ∀ index : Nat, flags[index]? = some false → ∀ least ≤ fuel,
      t.Pending world (flags.set index true) least →
        (plainly valid (flags.set index true)).Lookups (t.plainLookups world least) k)
    (id : String) :
    (plainly valid flags).rel (t.plainValue (t.plainLookups world fuel) id) (t.value k id) := by
  rw [t.value_eq_valueFrom]
  apply valueFrom_plainly
  intro index v hv hends
  rw [Nat.zero_add]
  have halways := hpolicy v (List.mem_of_getElem? hv)
  exact follows_of_ends hlength hpending hv halways hends (hbelow index)

/-- Lookups that may nest deeper than flags are down follow the plain ones as long as no
declaration under evaluation is settled. -/
theorem lookups_plainly {outer : Lookups (Run σ)} (houter : (constantly valid).Lookups world outer)
    (hpolicy : ∀ v ∈ t.declarations, v.policy = .always) (hlength : flags.length = t.size)
    {depth : Nat} (hdepth : flags.count false < depth) (hpending : t.Pending world flags fuel) :
    (plainly valid flags).Lookups (t.plainLookups world fuel) (t.lookups outer depth) := by
  induction fuel using Nat.strong_induction_on generalizing flags depth with
  | _ fuel ih =>
  obtain ⟨depth, rfl⟩ : ∃ less, depth = less + 1 := ⟨depth - 1, by omega⟩
  cases fuel with
  | zero =>
      apply (houter.toPlainly flags).variables
      · intro id text h
        cases h
      · intro id value h
        cases h
  | succ fuel =>
      have hvalue : ∀ id, (plainly valid flags).rel (t.plainValue (t.plainLookups world fuel) id)
          (t.value (t.lookups outer depth) id) := by
        apply value_plainly hpolicy hlength hpending
        intro index hdown least hleast hraised
        have hfewer := count_set_true hdown
        exact ih least (by omega) (by simpa using hlength) (by omega) hraised
      rw [plainLookups, lookups]
      apply (houter.toPlainly flags).variables
      · intro id
        apply plainly_of_constantly (houter.variableText id)
        cases world.variableText id with
        | some text => exact (plainly valid flags).rel_pure (some text)
        | none =>
            apply (plainly valid flags).rel_bind (hvalue id)
            exact fun value => (plainly valid flags).rel_pure (value.map Value.asText)
      · intro id
        apply plainly_of_constantly (houter.variableValue id)
        cases world.variableValue id with
        | some value => exact (plainly valid flags).rel_pure (some value)
        | none => exact hvalue id

/-- Where the plain recursion ends, the guarded one returns the same value: its fallback is taken
in true circles only. -/
theorem value_eq_plainValue {outer : Lookups (Run σ)}
    (houter : (constantly valid).Lookups world outer)
    (hpolicy : ∀ v ∈ t.declarations, v.policy = .always) {id : String} {result : Option Value}
    (hresult : t.plainValue (t.plainLookups world fuel) id = some result) {cells : Cells}
    (hcells : cells.length = t.size) (hidle : ∀ cell ∈ cells, cell.evaluating = false)
    {depth : Nat} (hdepth : t.size ≤ depth) {st : σ} (hvalid : valid st) :
    ∃ st', valid st' ∧
      t.value (t.lookups outer depth) id cells st = some ((result, cells), st') := by
  have hlength : cells.flags.length = t.size := by simpa [Cells.flags] using hcells
  have hcount : cells.flags.count false ≤ t.size := hlength ▸ List.count_le_length
  have hpending : t.Pending world cells.flags (fuel + 1) := by
    intro index v _ hup
    obtain ⟨cell, hcell, hflag⟩ := List.mem_map.mp (List.mem_of_getElem? hup)
    simp [hidle cell hcell] at hflag
  have hvalue : (plainly valid cells.flags).rel (t.plainValue (t.plainLookups world fuel) id)
      (t.value (t.lookups outer depth) id) := by
    apply value_plainly hpolicy hlength hpending
    intro index hdown least _ hraised
    have hfewer := count_set_true hdown
    exact lookups_plainly houter hpolicy (by simpa using hlength) (by omega) hraised
  exact hvalue result hresult cells st rfl hvalid

/-- Variables without circles: the first `b` does not apply, and `a` is a text that is read as a
template. -/
def chain : VariableTable where
  declarations := [
    { id := "a", value := .text (.literal "#b") },
    { id := "b", value := .number 1, condition := some (.reference "c") },
    { id := "b", value := .call .add [.reference "c", .number 7] },
    { id := "c", value := .number 0 }]

theorem value_eq_plainValue_chain :
    (∀ v ∈ chain.declarations, v.policy = .always) ∧
      chain.plainValue (chain.plainLookups emptyWorld 2) "a" = some (some (.text "7")) ∧
      ∃ st', True ∧
        chain.value (chain.lookups (.fixed emptyWorld) 4) "a" (List.replicate 4 {}) () =
          some ((some (.text "7"), List.replicate 4 {}), st') := by
  have hpolicy : ∀ v ∈ chain.declarations, v.policy = .always := by simp [chain]
  have hplain :
      chain.plainValue (chain.plainLookups emptyWorld 2) "a" = some (some (.text "7")) := by
    rfl
  have hidle : ∀ cell ∈ List.replicate 4 ({} : VariableCell), cell.evaluating = false := by
    decide
  have houter : (constantly fun _ => True).Lookups emptyWorld
      (.fixed emptyWorld : Lookups (Run Unit)) := .fixed emptyWorld
  refine ⟨hpolicy, hplain, ?_⟩
  exact value_eq_plainValue houter hpolicy hplain rfl hidle (Nat.le_refl 4) trivial

end VariableTable

end PanelSkin
