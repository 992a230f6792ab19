import Mathlib.Tactic
import PanelSkin.Expr.Parser
import PanelSkin.Proofs.Expr.Execution
import PanelSkin.Proofs.Expr.RoundTrip

/-!
Calls with as many arguments as their operators take. Whatever text an expression is read from,
all its calls are such, so that none looks for an argument that is not there. Then division is
the only thing left that can fail: evaluation fails exactly when, on its way through the
arguments from left to right, it comes to a division by zero.
-/

namespace PanelSkin

namespace Execution

variable {m : Type → Type} [Monad m] {σ ε α β : Type} (E : Execution m σ)

/-- The computation ends in a state with a value. -/
def Returns (x : ExceptT ε m α) (s : σ) (a : α) (s' : σ) : Prop :=
  E.run x.run s = some (.ok a, s')

def Fails (x : ExceptT ε m α) (s : σ) (e : ε) : Prop := ∃ s', E.run x.run s = some (.error e, s')

variable {E} {x : ExceptT ε m α} {s : σ} {e : ε}

theorem fails_pure {a : α} : ¬ E.Fails (pure a : ExceptT ε m α) s e := by
  rintro ⟨s', h⟩
  have hrun := E.run_pure (Except.ok a : Except ε α) s
  cases hrun.symm.trans h

theorem fails_throw {cause : ε} : E.Fails (throw cause : ExceptT ε m α) s e ↔ e = cause := by
  have hrun := E.run_pure (Except.error cause : Except ε α) s
  constructor
  · rintro ⟨s', h⟩
    cases hrun.symm.trans h
    rfl
  · rintro rfl
    exact ⟨s, hrun⟩

theorem fails_bind {f : α → ExceptT ε m β} : E.Fails (x >>= f) s e ↔
    E.Fails x s e ∨ ∃ a s', E.Returns x s a s' ∧ E.Fails (f a) s' e := by
  have hrun : E.run (x >>= f).run s = (E.run x.run s).bind fun (outcome, s') =>
      E.run (ExceptT.bindCont f outcome) s' := E.run_bind _ _ _
  unfold Fails Returns
  rw [hrun]
  cases E.run x.run s with
  | none => simp
  | some outcome =>
      obtain ⟨result, between⟩ := outcome
      cases result with
      | ok a => simp [ExceptT.bindCont]; rfl
      | error cause =>
        have hstop := E.run_pure (Except.error cause : Except ε β) between
        simp [ExceptT.bindCont, hstop]

theorem fails_lift [LawfulMonad m] {y : m α} : ¬ E.Fails (liftM y : ExceptT ε m α) s e := by
  rintro ⟨s', h⟩
  have hlift : (liftM y : ExceptT ε m α).run = y >>= fun a => pure (Except.ok a) :=
    map_eq_pure_bind _ _
  rw [hlift, E.run_bind] at h
  obtain ⟨⟨a, between⟩, -, hpure⟩ := Option.bind_eq_some_iff.mp h
  cases (E.run_pure _ between).symm.trans hpure

end Execution

namespace Expr

/-- Every call in the expression has as many arguments as its operator takes. -/
inductive Saturated : Expr → Prop where
  | text (template : Template) : Saturated (.text template)
  | number (n : Int64) : Saturated (.number n)
  | reference (id : String) : Saturated (.reference id)
  | call {op : Operator} {args : List Expr} (harity : op.arity.accepts args.length = true)
      (hargs : ∀ arg ∈ args, Saturated arg) : Saturated (.call op args)

end Expr

/-- Whether an operator goes on to its next argument after one of this value. -/
def Operator.goesOn : Operator → Value → Bool
  | .and, v => v.asBool
  | .or, v => !v.asBool
  | _, _ => true

namespace Execution

variable {m : Type → Type} [Monad m] {σ : Type} (E : Execution m σ) (lookups : Lookups m)

/-- Evaluates some arguments of an operator from left to right, after each of which it goes
on. -/
inductive Passes (op : Operator) : σ → List Expr → List Value → σ → Prop where
  | nil (s : σ) : Passes op s [] [] s
  | cons {s s' s'' : σ} {arg : Expr} {rest : List Expr} {v : Value} {values : List Value}
      (harg : E.Returns (arg.evaluate lookups) s v s') (hgoes : op.goesOn v = true)
      (hrest : Passes op s' rest values s'') : Passes op s (arg :: rest) (v :: values) s''

/-- Evaluation comes to a division whose divisor is zero as a number. -/
inductive DividesByZero : σ → Expr → Prop where
  | here {s s' : σ} {dividend divisor : Expr} {x y : Value}
      (hargs : E.Passes lookups .div s [dividend, divisor] [x, y] s') (hzero : y.asNumber = 0) :
      DividesByZero s (.call .div [dividend, divisor])
  | inside {s s' : σ} {op : Operator} {before after : List Expr} {values : List Value}
      {arg : Expr} (hbefore : E.Passes lookups op s before values s')
      (harg : DividesByZero s' arg) : DividesByZero s (.call op (before ++ arg :: after))

/-- One of the arguments fails when its turn comes. -/
def ArgFails (op : Operator) (s : σ) (args : List Expr) (e : EvalError) : Prop :=
  ∃ before arg after values s', args = before ++ arg :: after ∧
    E.Passes lookups op s before values s' ∧ E.Fails (arg.evaluate lookups) s' e

variable {E lookups} {op : Operator} {s : σ} {e : EvalError}

theorem argFails_nil : ¬ E.ArgFails lookups op s [] e := by
  rintro ⟨before, arg, after, values, s', hsplit, -⟩
  simp at hsplit

theorem argFails_cons {arg : Expr} {rest : List Expr} : E.ArgFails lookups op s (arg :: rest) e ↔
    E.Fails (arg.evaluate lookups) s e ∨ ∃ v s', E.Returns (arg.evaluate lookups) s v s' ∧
      op.goesOn v = true ∧ E.ArgFails lookups op s' rest e := by
  constructor
  · rintro ⟨before, other, after, values, s', hsplit, hbefore, hother⟩
    cases hbefore with
    | nil =>
        cases hsplit
        exact .inl hother
    | cons harg hgoes hrest =>
        cases hsplit
        exact .inr ⟨_, _, harg, hgoes, _, other, after, _, s', rfl, hrest, hother⟩
  · rintro (harg | ⟨v, between, harg, hgoes, before, other, after, values, s', rfl, hbefore,
      hother⟩)
    · exact ⟨[], arg, rest, [], s, rfl, .nil s, harg⟩
    · exact ⟨arg :: before, other, after, v :: values, s', rfl, .cons harg hgoes hbefore, hother⟩

theorem fails_allTrue {args : List Expr} :
    E.Fails (Expr.allTrue lookups args) s e ↔ E.ArgFails lookups .and s args e := by
  induction args generalizing s with
  | nil => simp only [Expr.allTrue, fails_pure, argFails_nil]
  | cons arg rest ih =>
      rw [Expr.allTrue, fails_bind, argFails_cons]
      have hrest (v : Value) (s' : σ) :
          E.Fails (if v.asBool then Expr.allTrue lookups rest else pure false) s' e ↔
            Operator.and.goesOn v = true ∧ E.ArgFails lookups .and s' rest e := by
        cases hv : v.asBool with
        | true => simp [Operator.goesOn, hv, ih]
        | false => simp [Operator.goesOn, hv, fails_pure]
      simp only [hrest]

theorem fails_anyTrue {args : List Expr} :
    E.Fails (Expr.anyTrue lookups args) s e ↔ E.ArgFails lookups .or s args e := by
  induction args generalizing s with
  | nil => simp only [Expr.anyTrue, fails_pure, argFails_nil]
  | cons arg rest ih =>
      rw [Expr.anyTrue, fails_bind, argFails_cons]
      have hrest (v : Value) (s' : σ) :
          E.Fails (if v.asBool then pure true else Expr.anyTrue lookups rest) s' e ↔
            Operator.or.goesOn v = true ∧ E.ArgFails lookups .or s' rest e := by
        cases hv : v.asBool with
        | true => simp [Operator.goesOn, hv, fails_pure]
        | false => simp [Operator.goesOn, hv, ih]
      simp only [hrest]

theorem fails_foldNumbers (hop : ∀ v, op.goesOn v = true) {combine : Int64 → Int64 → Int64}
    {args : List Expr} {acc : Int64} :
    E.Fails (Expr.foldNumbers lookups combine acc args) s e ↔ E.ArgFails lookups op s args e := by
  induction args generalizing s acc with
  | nil => simp only [Expr.foldNumbers, fails_pure, argFails_nil]
  | cons arg rest ih =>
      rw [Expr.foldNumbers, fails_bind, argFails_cons]
      simp only [ih, hop, true_and]

theorem argFails_one {arg : Expr} :
    E.ArgFails lookups op s [arg] e ↔ E.Fails (arg.evaluate lookups) s e := by
  simp only [argFails_cons, argFails_nil, and_false, exists_false, or_false]

theorem argFails_two (hop : ∀ v, op.goesOn v = true) {first second : Expr} :
    E.ArgFails lookups op s [first, second] e ↔ E.Fails (first.evaluate lookups) s e ∨
      ∃ v s', E.Returns (first.evaluate lookups) s v s' ∧
        E.Fails (second.evaluate lookups) s' e := by
  simp only [argFails_cons, argFails_nil, and_false, exists_false, or_false, hop, true_and]

theorem passes_two {first second : Expr} {x y : Value} {s'' : σ}
    (hop : ∀ v, op.goesOn v = true) : E.Passes lookups op s [first, second] [x, y] s'' ↔
      ∃ s', E.Returns (first.evaluate lookups) s x s' ∧
        E.Returns (second.evaluate lookups) s' y s'' := by
  constructor
  · intro h
    cases h with
    | cons hfirst _ hrest =>
        cases hrest with
        | cons hsecond _ hnone =>
            cases hnone
            exact ⟨_, hfirst, hsecond⟩
  · rintro ⟨s', hfirst, hsecond⟩
    exact .cons hfirst (hop x) (.cons hsecond (hop y) (.nil s''))

/-- The division of two arguments fails if one of them does, or if the divisor is zero. -/
theorem fails_div {dividend divisor : Expr} :
    E.Fails ((Expr.call .div [dividend, divisor]).evaluate lookups) s e ↔
      E.ArgFails lookups .div s [dividend, divisor] e ∨ e = .divisionByZero ∧ ∃ x y s',
        E.Passes lookups .div s [dividend, divisor] [x, y] s' ∧ y.asNumber = 0 := by
  have hlast (x y : Value) (s' : σ) :
      E.Fails (if y.asNumber = 0 then throw .divisionByZero
        else pure (.number (x.asNumber / y.asNumber)) : ExceptT EvalError m Value) s' e ↔
          y.asNumber = 0 ∧ e = .divisionByZero := by
    by_cases hzero : y.asNumber = 0
    · simp [hzero, fails_throw]
    · simp [hzero, fails_pure]
  have hpasses (x y : Value) (s' : σ) : E.Passes lookups .div s [dividend, divisor] [x, y] s' ↔
      ∃ between, E.Returns (dividend.evaluate lookups) s x between ∧
        E.Returns (divisor.evaluate lookups) between y s' := passes_two fun _ => rfl
  rw [argFails_two fun _ => rfl]
  simp only [Expr.evaluate, Expr.evaluateAt, fails_bind, hlast, hpasses]
  constructor
  · rintro (hdividend | ⟨x, between, hdividend, hdivisor | ⟨y, s', hdivisor, hzero, rfl⟩⟩)
    · exact .inl (.inl hdividend)
    · exact .inl (.inr ⟨x, between, hdividend, hdivisor⟩)
    · exact .inr ⟨rfl, x, y, s', ⟨between, hdividend, hdivisor⟩, hzero⟩
  · rintro ((hdividend | ⟨x, between, hdividend, hdivisor⟩) |
      ⟨rfl, x, y, s', ⟨between, hdividend, hdivisor⟩, hzero⟩)
    · exact .inl hdividend
    · exact .inr ⟨x, between, hdividend, .inl hdivisor⟩
    · exact .inr ⟨x, between, hdividend, .inr ⟨y, s', hdivisor, hzero, rfl⟩⟩

/-- What follows on a computation and cannot fail adds no failure. -/
theorem fails_bind_of_safe {ε α β : Type} {x : ExceptT ε m α} {f : α → ExceptT ε m β} {cause : ε}
    (hf : ∀ a s', ¬ E.Fails (f a) s' cause) : E.Fails (x >>= f) s cause ↔ E.Fails x s cause := by
  simp only [fails_bind, hf, and_false, exists_false, or_false]

theorem not_fails_lift_bind [LawfulMonad m] {ε α β : Type} {y : m α} {f : α → ExceptT ε m β}
    {cause : ε} (hf : ∀ a s', ¬ E.Fails (f a) s' cause) :
    ¬ E.Fails (liftM y >>= f) s cause := by
  rw [fails_bind_of_safe hf]
  exact fails_lift

theorem eq_singleton_of_accepts {args : List Expr} (hop : op.arity = .exactly 1)
    (harity : op.arity.accepts args.length = true) : ∃ arg, args = [arg] := by
  simpa [hop, Arity.accepts, List.length_eq_one_iff] using harity

theorem eq_pair_of_accepts {args : List Expr} (hop : op.arity = .exactly 2)
    (harity : op.arity.accepts args.length = true) : ∃ first second, args = [first, second] := by
  simpa [hop, Arity.accepts, List.length_eq_two] using harity

theorem eq_cons_of_accepts {args : List Expr} (hop : op.arity = .atLeast 1)
    (harity : op.arity.accepts args.length = true) : ∃ first rest, args = first :: rest := by
  cases args with
  | nil => simp [hop, Arity.accepts] at harity
  | cons first rest => exact ⟨first, rest, rfl⟩

/-- A call of any other operator fails just where one of its arguments does. -/
theorem fails_call [LawfulMonad m] {args : List Expr} (hop : op ≠ .div)
    (harity : op.arity.accepts args.length = true) :
    E.Fails ((Expr.call op args).evaluate lookups) s e ↔ E.ArgFails lookups op s args e := by
  cases op with
  | div => exact absurd rfl hop
  | and =>
      rw [Expr.evaluate, fails_bind_of_safe fun _ _ => fails_pure]
      exact fails_allTrue
  | or =>
      rw [Expr.evaluate, fails_bind_of_safe fun _ _ => fails_pure]
      exact fails_anyTrue
  | add =>
      rw [Expr.evaluate, fails_bind_of_safe fun _ _ => fails_pure]
      exact fails_foldNumbers fun _ => rfl
  | mul =>
      rw [Expr.evaluate, fails_bind_of_safe fun _ _ => fails_pure]
      exact fails_foldNumbers fun _ => rfl
  | sub =>
      obtain ⟨first, rest, rfl⟩ := eq_cons_of_accepts rfl harity
      have hrest (acc : Int64) (s' : σ) : E.Fails (Expr.foldNumbers lookups (· - ·) acc rest) s' e ↔
          E.ArgFails lookups .sub s' rest e := fails_foldNumbers fun _ => rfl
      rw [Expr.evaluate, fails_bind, argFails_cons]
      simp only [fails_bind_of_safe fun _ _ => fails_pure, hrest, Operator.goesOn, true_and]
  | not =>
      obtain ⟨arg, rfl⟩ := eq_singleton_of_accepts rfl harity
      rw [argFails_one, Expr.evaluate, Expr.evaluateAt]
      exact fails_bind_of_safe fun _ _ => fails_pure
  | trans =>
      obtain ⟨arg, rfl⟩ := eq_singleton_of_accepts rfl harity
      rw [argFails_one, Expr.evaluate, Expr.evaluateAt]
      exact fails_bind_of_safe fun _ _ => not_fails_lift_bind fun _ _ => fails_pure
  | fontMetric metric =>
      obtain ⟨arg, rfl⟩ := eq_singleton_of_accepts rfl harity
      rw [argFails_one, Expr.evaluate, Expr.evaluateAt]
      exact fails_bind_of_safe fun _ _ => not_fails_lift_bind fun _ _ => fails_pure
  | pictureSide extent =>
      obtain ⟨arg, rfl⟩ := eq_singleton_of_accepts rfl harity
      rw [argFails_one, Expr.evaluate, Expr.evaluateAt]
      exact fails_bind_of_safe fun _ _ => not_fails_lift_bind fun _ _ => fails_pure
  | queryFeature =>
      obtain ⟨arg, rfl⟩ := eq_singleton_of_accepts rfl harity
      rw [argFails_one, Expr.evaluate, Expr.evaluateAt]
      exact fails_bind_of_safe fun _ _ => not_fails_lift_bind fun _ _ => fails_pure
  | file =>
      obtain ⟨arg, rfl⟩ := eq_singleton_of_accepts rfl harity
      rw [argFails_one, Expr.evaluate, Expr.evaluateAt]
      refine fails_bind_of_safe fun _ _ => not_fails_lift_bind fun size s' => ?_
      cases size with
      | none => exact fails_pure
      | some size => exact fails_pure
  | compare relation =>
      obtain ⟨first, second, rfl⟩ := eq_pair_of_accepts rfl harity
      rw [argFails_two fun _ => rfl, Expr.evaluate, Expr.evaluateAt, fails_bind]
      simp only [Expr.evaluateAt, fails_bind_of_safe fun _ _ => fails_pure]
  | textExtent extent =>
      obtain ⟨first, second, rfl⟩ := eq_pair_of_accepts rfl harity
      have hmeasured (font text : Value) (s' : σ) : ¬ E.Fails (do
          let extent ← liftM (lookups.textExtent font.asText text.asText extent)
          return Expr.measured extent : ExceptT EvalError m Value) s' e :=
        not_fails_lift_bind fun _ _ => fails_pure
      rw [argFails_two fun _ => rfl, Expr.evaluate, Expr.evaluateAt, fails_bind]
      simp only [Expr.evaluateAt, fails_bind_of_safe (hmeasured _)]

theorem dividesByZero_call {args : List Expr} : E.DividesByZero lookups s (.call op args) ↔
    (∃ before arg after values s', args = before ++ arg :: after ∧
      E.Passes lookups op s before values s' ∧ E.DividesByZero lookups s' arg) ∨
    op = .div ∧ ∃ dividend divisor x y s', args = [dividend, divisor] ∧
      E.Passes lookups .div s [dividend, divisor] [x, y] s' ∧ y.asNumber = 0 := by
  constructor
  · intro h
    cases h with
    | here hpasses hzero => exact .inr ⟨rfl, _, _, _, _, _, rfl, hpasses, hzero⟩
    | inside hbefore harg => exact .inl ⟨_, _, _, _, _, rfl, hbefore, harg⟩
  · rintro (⟨before, arg, after, values, s', rfl, hbefore, harg⟩ |
      ⟨rfl, dividend, divisor, x, y, s', rfl, hpasses, hzero⟩)
    · exact .inside hbefore harg
    · exact .here hpasses hzero

/-- Evaluation with enough arguments fails just by coming to a division by zero. -/
theorem fails_evaluate [LawfulMonad m] {expr : Expr} (h : expr.Saturated) (s : σ) (e : EvalError) :
    E.Fails (expr.evaluate lookups) s e ↔
      e = .divisionByZero ∧ E.DividesByZero lookups s expr := by
  induction h generalizing s with
  | text template =>
      constructor
      · exact fun hfails => absurd hfails fails_lift
      · rintro ⟨-, hdivides⟩
        cases hdivides
  | number n =>
      constructor
      · exact fun hfails => absurd hfails fails_pure
      · rintro ⟨-, hdivides⟩
        cases hdivides
  | reference id =>
      constructor
      · exact fun hfails => absurd hfails (not_fails_lift_bind fun _ _ => fails_pure)
      · rintro ⟨-, hdivides⟩
        cases hdivides
  | @call op args harity hargs ih =>
      have hinside : E.ArgFails lookups op s args e ↔ e = .divisionByZero ∧
          ∃ before arg after values s', args = before ++ arg :: after ∧
            E.Passes lookups op s before values s' ∧ E.DividesByZero lookups s' arg := by
        constructor
        · rintro ⟨before, arg, after, values, s', rfl, hbefore, harg⟩
          obtain ⟨rfl, hdivides⟩ := (ih arg (by simp) s').mp harg
          exact ⟨rfl, before, arg, after, values, s', rfl, hbefore, hdivides⟩
        · rintro ⟨rfl, before, arg, after, values, s', rfl, hbefore, hdivides⟩
          have harg := (ih arg (by simp) s').mpr ⟨rfl, hdivides⟩
          exact ⟨before, arg, after, values, s', rfl, hbefore, harg⟩
      rw [dividesByZero_call, and_or_left, ← hinside]
      by_cases hop : op = .div
      · subst hop
        obtain ⟨dividend, divisor, rfl⟩ := eq_pair_of_accepts rfl harity
        rw [fails_div]
        simp
      · rw [fails_call hop harity]
        simp only [hop, false_and, and_false, or_false]

/-! What is read. -/

section Reading

variable {α β : Type}

/-- Whatever is read, if reading ends without an error, has the property. -/
structure Reads (E : Execution m σ) (x : Expr.Reading m α) (P : α → Prop) : Prop where
  of_run : ∀ {s a s'}, E.run x.run.run s = some (some (.ok a), s') → P a

variable {P : α → Prop} {Q : β → Prop} {x : Expr.Reading m α}

theorem reads_pure {a : α} (ha : P a) : E.Reads (pure a) P where
  of_run {s b s'} h := by
    have hrun := E.run_pure (some (Except.ok a) : Option (Except ExprError α)) s
    cases hrun.symm.trans h
    exact ha

theorem reads_throw {e : ExprError} : E.Reads (throw e) P where
  of_run {s a s'} h := by
    have hrun := E.run_pure (some (Except.error e) : Option (Except ExprError α)) s
    cases hrun.symm.trans h

theorem reads_fail : E.Reads (ExceptT.mk OptionT.fail) P where
  of_run {s a s'} h := by
    have hrun := E.run_pure (none : Option (Except ExprError α)) s
    cases hrun.symm.trans h

theorem reads_bind (hx : E.Reads x P) {f : α → Expr.Reading m β}
    (hf : ∀ a, P a → E.Reads (f a) Q) : E.Reads (x >>= f) Q where
  of_run {s b s'} h := by
    rw [ExceptT.run_bind, OptionT.run_bind, Option.elimM, E.run_bind] at h
    obtain ⟨⟨outcome, between⟩, hfirst, hrest⟩ := Option.bind_eq_some_iff.mp h
    cases outcome with
    | none => cases (E.run_pure _ between).symm.trans hrest
    | some result =>
        cases result with
        | error e =>
            have hstop := E.run_pure (some (Except.error e) : Option (Except ExprError β)) between
            cases hstop.symm.trans hrest
        | ok a => exact (hf a (hx.of_run hfirst)).of_run hrest

theorem reads_any : E.Reads x fun _ => True := ⟨fun _ => trivial⟩

/-- A step that is not in the monad. -/
theorem reads_except {y : Except ExprError α} (hy : ∀ a, y = .ok a → P a) :
    E.Reads (liftM y) P := by
  cases y with
  | ok a => exact reads_pure (hy a rfl)
  | error e => exact reads_throw

end Reading

end Execution

namespace Expr

variable {m : Type → Type} [Monad m] {σ : Type} {E : Execution m σ} {lookups : Lookups m}
  {whole : String}

theorem saturated_of_readNumber {s rest : List Char} {e : Expr}
    (h : readNumber s = .ok (e, rest)) : e.Saturated := by
  unfold readNumber at h
  dsimp only at h
  split at h
  · cases h
    exact .number _
  · cases h

theorem saturated_of_readReference {s rest : List Char} {e : Expr}
    (h : readReference whole s = .ok (e, rest)) : e.Saturated := by
  unfold readReference at h
  dsimp only at h
  split at h
  · cases h
    exact .reference _
  · cases h

theorem saturated_of_checkedCall {op : Operator} {args : List Expr} {e : Expr}
    (hargs : ∀ arg ∈ args, arg.Saturated) (h : checkedCall op args = .ok e) : e.Saturated := by
  unfold checkedCall at h
  split at h
  · rename_i harity
    cases h
    exact .call harity hargs
  · cases h

open Execution

theorem reads_readTemplate (text : List Char) :
    E.Reads (readTemplate lookups text) Expr.Saturated := by
  apply reads_bind reads_any
  exact fun template _ => reads_pure (.text template)

theorem reads_call (op : Operator) (read : List Expr × List Char)
    (hargs : ∀ arg ∈ read.1, arg.Saturated) : E.Reads (do
      return (← checkedCall op read.1, read.2)) fun read => read.1.Saturated := by
  apply reads_bind (reads_except fun _ => saturated_of_checkedCall hargs)
  exact fun e he => reads_pure he

mutual

theorem reads_readExpr : ∀ (bound : Nat) (inCall : Bool) (s : List Char),
    E.Reads (readExpr lookups whole bound inCall s) fun read => read.1.Saturated
  | 0, _, _ => by
      rw [readExpr]
      exact reads_fail
  | bound + 1, inCall, s => by
      have htemplate (text after : List Char) : E.Reads (do
          return (← readTemplate lookups text, after)) fun read => read.1.Saturated :=
        reads_bind (reads_readTemplate text) fun _ he => reads_pure he
      rw [readExpr]
      cases Text.trimStart s with
      | nil => exact reads_throw
      | cons c rest =>
          dsimp only
          split
          · cases readQuoted rest with
            | none => exact reads_throw
            | some quoted => exact htemplate _ _
          split
          · exact htemplate _ _
          split
          · exact reads_except fun _ => saturated_of_readReference
          split
          · exact reads_except fun _ => saturated_of_readNumber
          split
          · split
            · rename_i inner _
              cases Operator.ofName? _ with
              | none => exact reads_throw
              | some op =>
                  dsimp only
                  split
                  · exact reads_bind (reads_pure (by simp)) (reads_call op)
                  · exact reads_bind (reads_readArgs bound _) (reads_call op)
            · exact reads_throw
          · exact reads_throw

theorem reads_readArgs : ∀ (bound : Nat) (s : List Char),
    E.Reads (readArgs lookups whole bound s) fun read => ∀ arg ∈ read.1, arg.Saturated
  | 0, _ => by
      rw [readArgs]
      exact reads_fail
  | bound + 1, s => by
      rw [readArgs]
      apply reads_bind (reads_readExpr bound true s)
      intro first harg
      dsimp only
      split
      · apply reads_bind (reads_readArgs bound _)
        intro others hargs
        exact reads_pure (List.forall_mem_cons.mpr ⟨harg, hargs⟩)
      · exact reads_pure (List.forall_mem_singleton.mpr harg)
      · exact reads_throw

end

theorem saturated_of_parse {text : String} {s s' : σ} {e : Expr}
    (h : E.run (Expr.parse lookups text) s = some (.ok e, s')) : e.Saturated := by
  unfold Expr.parse at h
  dsimp only at h
  split at h
  · cases (E.run_pure _ s).symm.trans h
  · rw [E.run_bind] at h
    obtain ⟨⟨outcome, between⟩, hread, hrest⟩ := Option.bind_eq_some_iff.mp h
    cases outcome with
    | none => cases (E.run_pure _ between).symm.trans hrest
    | some result =>
        cases result with
        | error cause => cases (E.run_pure _ between).symm.trans hrest
        | ok read =>
            have hrun : E.run (readExpr lookups text ((Text.trimStart text.toList).length + 1)
                false (Text.trimStart text.toList)).run.run s =
                  some (some (.ok read), between) := hread
            have hsaturated : read.1.Saturated := (reads_readExpr _ _ _).of_run hrun
            dsimp only at hrest
            split at hrest
            · cases (E.run_pure _ between).symm.trans hrest
              exact hsaturated
            · cases (E.run_pure _ between).symm.trans hrest

/-- What is read from a text has, at every call, as many arguments as the operator takes. So
evaluation, in whatever surroundings, never misses an argument: it fails only by a division by
zero, and exactly when it comes to one. -/
theorem evaluate_of_parse {parsing : Lookups m} {text : String} {s s' : σ} {e : Expr}
    (hparse : E.run (Expr.parse parsing text) s = some (.ok e, s')) :
    e.Saturated ∧ ∀ {n : Type → Type} [Monad n] [LawfulMonad n] {τ : Type} (F : Execution n τ)
      (lookups : Lookups n) (t : τ) (cause : EvalError),
      F.Fails (e.evaluate lookups) t cause ↔
        cause = .divisionByZero ∧ F.DividesByZero lookups t e := by
  have hsaturated := saturated_of_parse hparse
  exact ⟨hsaturated, fun F lookups => fails_evaluate hsaturated⟩

/-- What stands before the division is false, so that evaluation comes to it. -/
theorem evaluate_of_parse_or :
    let e : Expr := .call .or [.reference "x", .call .div [.number 1, .number 0]]
    Execution.immediate.run (Expr.parse emptyWorld "or(#x,div(1,0))") () = some (.ok e, ()) ∧
      Execution.immediate.DividesByZero emptyWorld () e ∧
      Execution.immediate.Fails (e.evaluate emptyWorld) () .divisionByZero := by
  intro e
  have hnone : IsGap [] := by decide
  have hdiv : Written emptyWorld.tokenId (.call .div [.number 1, .number 0]) "div(1,0)".toList :=
    @Written.call _ .div _ [] _ (by decide) hnone
      (@WrittenArgs.more _ _ _ [] _ [] _ hnone (.number 1) hnone
        (@WrittenArgs.last _ _ [] _ [] hnone (.number 0) hnone))
  have hwritten : Written emptyWorld.tokenId e "or(#x,div(1,0))".toList :=
    @Written.call _ .or _ [] _ (by decide) hnone
      (@WrittenArgs.more _ _ _ [] _ [] _ hnone (@Written.reference _ "x".toList (by decide)) hnone
        (@WrittenArgs.last _ _ [] _ [] hnone hdiv hnone))
  have hwhole : String.ofList ([] ++ "or(#x,div(1,0))".toList ++ []) = "or(#x,div(1,0))" := by
    decide
  have hread : Expr.parse emptyWorld "or(#x,div(1,0))" = .ok e :=
    hwhole ▸ hwritten.parse hnone hnone
  have hparse : Execution.immediate.run (Expr.parse emptyWorld "or(#x,div(1,0))") () =
      some (.ok e, ()) := congrArg (fun read => some (read, ())) hread
  have hdivides : Execution.immediate.DividesByZero emptyWorld () e := by
    have hfirst : Execution.immediate.Passes emptyWorld .or () [.reference "x"]
        [.boolean false] () := .cons rfl rfl (.nil ())
    have hnumbers : Execution.immediate.Passes emptyWorld .div () [.number 1, .number 0]
        [.number 1, .number 0] () := .cons rfl rfl (.cons rfl rfl (.nil ()))
    exact @Execution.DividesByZero.inside _ _ _ _ _ _ _ .or [.reference "x"] [] _ _ hfirst
      (.here hnumbers rfl)
  exact ⟨hparse, hdivides, ((evaluate_of_parse hparse).2 .immediate emptyWorld () _).mpr
    ⟨rfl, hdivides⟩⟩

end Expr

end PanelSkin
