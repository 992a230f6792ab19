import PanelSkin.Proofs.Expr.Guard

/-!
Carrying out the computations of a monad. What expressions and widgets do is written for any monad;
an execution says what comes of it from some state. Computations in order are carried out in order,
each from the state that the one before has left.
-/

namespace PanelSkin

/-- Carries out the computations of a monad: from each state there is one outcome, if any, which
leaves another state. -/
structure Execution (m : Type → Type) [Monad m] (σ : Type) where
  run : {α : Type} → m α → σ → Option (α × σ)
  run_pure : ∀ {α : Type} (a : α) (s : σ), run (pure a) s = some (a, s)
  run_bind : ∀ {α β : Type} (x : m α) (f : α → m β) (s : σ),
    run (x >>= f) s = (run x s).bind fun (a, s') => run (f a) s'

namespace Execution

/-- Computations that nothing outside of them can change. -/
def immediate : Execution Id Unit where
  run x _ := some (x, ())
  run_pure _ _ := rfl
  run_bind _ _ _ := rfl

/-- Evaluations with variables change their cells, and what they look up elsewhere. -/
def evaluation (σ : Type) : Execution (Run σ) (Cells × σ) where
  run x s := (x s.1 s.2).map fun ((a, cells), st) => (a, cells, st)
  run_pure _ _ := rfl
  run_bind x f s := by
    rw [Run.bind_run]
    cases x s.1 s.2 with
    | none => rfl
    | some outcome => rfl

variable {m : Type → Type} [Monad m] {σ α β : Type} {E : Execution m σ} {x : m α} {s s' : σ}
  {a : α}

theorem run_bind_of_run (h : E.run x s = some (a, s')) (f : α → m β) :
    E.run (x >>= f) s = E.run (f a) s' := by
  rw [E.run_bind, h, Option.bind_some]

theorem run_bind_pure (x : m α) (f : α → β) (s : σ) :
    E.run (x >>= fun a => pure (f a)) s = (E.run x s).map (Prod.map f id) := by
  rw [E.run_bind]
  cases E.run x s with
  | none => rfl
  | some outcome => exact E.run_pure _ _

theorem run_bind_eq_some {f : α → m β} {b : β} {s'' : σ} :
    E.run (x >>= f) s = some (b, s'') ↔
      ∃ a s', E.run x s = some (a, s') ∧ E.run (f a) s' = some (b, s'') := by
  rw [E.run_bind, Option.bind_eq_some_iff]
  exact Prod.exists

theorem run_pure_eq_some {b : α} : E.run (pure a) s = some (b, s') ↔ a = b ∧ s = s' := by
  rw [E.run_pure, Option.some.injEq, Prod.mk.injEq]

theorem run_map_eq_some [LawfulMonad m] {f : α → β} {b : β} :
    E.run (f <$> x) s = some (b, s') ↔ ∃ a, E.run x s = some (a, s') ∧ f a = b := by
  simp only [map_eq_pure_bind, run_bind_eq_some, run_pure_eq_some]
  constructor
  · rintro ⟨a, s', hx, hb, rfl⟩
    exact ⟨a, hx, hb⟩
  · rintro ⟨a, hx, hb⟩
    exact ⟨a, s', hx, hb, rfl⟩

end Execution

end PanelSkin
