import PanelSkin.Proofs.Expr.Saturated

/-!
Arithmetic in expressions. Numbers are words of 64 bits, and sums, differences and products of them
wrap. Reduction to words keeps these three, so a tree of them comes to the whole number that it
would come to without any bound, reduced once at the end. A quotient is one of words, and there is
none by zero. Such an error, or one of an operand, ends the evaluation of the tree around it,
whatever the place; as a number the whole tree then counts as zero.
-/

namespace PanelSkin

/-- What becomes of a first number and others. -/
inductive Combination where
  | sum
  | difference
  | product
  deriving DecidableEq, Repr

namespace Combination

def operator : Combination → Operator
  | .sum => .add
  | .difference => .sub
  | .product => .mul

def exact (first : Int) (others : List Int) : Combination → Int
  | .sum => first + others.sum
  | .difference => first - others.sum
  | .product => first * others.prod

/-- Takes in one more number. -/
def step (c : Combination) (a b : Int64) : Int64 :=
  match c with
  | .sum => a + b
  | .difference => a - b
  | .product => a * b

/-- Reduction to words keeps combinations. -/
theorem ofInt_exact (c : Combination) (first : Int) (others : List Int) :
    Int64.ofInt (c.exact first others) =
      (others.map Int64.ofInt).foldl c.step (Int64.ofInt first) := by
  induction others generalizing first with
  | nil => cases c <;> simp [exact]
  | cons n others ih =>
      rw [List.map_cons, List.foldl_cons]
      cases c with
      | sum =>
          rw [step, ← Int64.ofInt_add, ← ih, exact, exact, List.sum_cons, Int.add_assoc]
      | difference =>
          rw [step, ← Int64.ofInt_sub, ← ih, exact, exact, List.sum_cons, Int.sub_sub]
      | product =>
          rw [step, ← Int64.ofInt_mul, ← ih, exact, exact, List.prod_cons, Int.mul_assoc]

/-- Words are combined one by one, or all at once and reduced at the end. -/
theorem ofInt_exact_words (c : Combination) (first : Int64) (others : List Int64) :
    Int64.ofInt (c.exact first.toInt (others.map Int64.toInt)) = others.foldl c.step first := by
  rw [ofInt_exact, List.map_map, Function.comp_def]
  simp only [Int64.ofInt_toInt, List.map_id']

/-- It is all the same whether numbers are reduced before they are combined. -/
theorem ofInt_exact_toInt (c : Combination) (first : Int) (others : List Int) :
    Int64.ofInt (c.exact (Int64.ofInt first).toInt
      ((others.map Int64.ofInt).map Int64.toInt)) = Int64.ofInt (c.exact first others) := by
  rw [ofInt_exact_words, ofInt_exact]

end Combination

/-- A tree of calls of the arithmetic operators. -/
inductive Arithmetic (α : Type) where
  | operand (a : α)
  | combine (c : Combination) (first : Arithmetic α) (rest : List (Arithmetic α))
  | divide (dividend divisor : Arithmetic α)

namespace Arithmetic

variable {α β : Type}

mutual

/-- The expression, whose operands are expressions of any kind. -/
def toExpr : Arithmetic Expr → Expr
  | .operand e => e
  | .combine c first rest => .call c.operator (first.toExpr :: toExprs rest)
  | .divide dividend divisor => .call .div [dividend.toExpr, divisor.toExpr]

def toExprs : List (Arithmetic Expr) → List Expr
  | [] => []
  | t :: rest => t.toExpr :: toExprs rest

end

mutual

/-- The exact value of a tree of numbers. -/
def exact : Arithmetic Int → Int
  | .operand n => n
  | .combine c first rest => c.exact first.exact (exactAll rest)
  | .divide dividend divisor => dividend.exact.tdiv divisor.exact

def exactAll : List (Arithmetic Int) → List Int
  | [] => []
  | t :: rest => t.exact :: exactAll rest

end

section Reading

variable {n : Type → Type} [Monad n]

mutual

/-- The tree with its operands read, from left to right. -/
def traverse (read : α → n β) : Arithmetic α → n (Arithmetic β)
  | .operand a => do return .operand (← read a)
  | .combine c first rest => do
    let first ← first.traverse read
    return .combine c first (← traverseAll read rest)
  | .divide dividend divisor => do
    let dividend ← dividend.traverse read
    return .divide dividend (← divisor.traverse read)

def traverseAll (read : α → n β) : List (Arithmetic α) → n (List (Arithmetic β))
  | [] => pure []
  | t :: rest => do
    let t ← t.traverse read
    return t :: (← traverseAll read rest)

end

end Reading

inductive DivisionFree : Arithmetic α → Prop where
  | operand (a : α) : DivisionFree (.operand a)
  | combine {c : Combination} {first : Arithmetic α} {rest : List (Arithmetic α)}
      (hfirst : DivisionFree first) (hrest : ∀ t ∈ rest, DivisionFree t) :
      DivisionFree (.combine c first rest)

theorem toExprs_eq_map (ts : List (Arithmetic Expr)) : toExprs ts = ts.map toExpr := by
  induction ts with
  | nil => rfl
  | cons t rest ih => rw [toExprs, ih, List.map_cons]

mutual

/-- What holds of operands, and of calls if it does of all their arguments, holds of trees. -/
theorem induct {motive : Arithmetic α → Prop} (operand : ∀ a, motive (.operand a))
    (combine : ∀ c first rest, motive first → (∀ t ∈ rest, motive t) →
      motive (.combine c first rest))
    (divide : ∀ dividend divisor, motive dividend → motive divisor →
      motive (.divide dividend divisor)) : (t : Arithmetic α) → motive t
  | .operand a => operand a
  | .combine c first rest =>
      combine c first rest (induct operand combine divide first)
        (inductAll operand combine divide rest)
  | .divide dividend divisor =>
      divide dividend divisor (induct operand combine divide dividend)
        (induct operand combine divide divisor)

theorem inductAll {motive : Arithmetic α → Prop} (operand : ∀ a, motive (.operand a))
    (combine : ∀ c first rest, motive first → (∀ t ∈ rest, motive t) →
      motive (.combine c first rest))
    (divide : ∀ dividend divisor, motive dividend → motive divisor →
      motive (.divide dividend divisor)) : (ts : List (Arithmetic α)) → ∀ t ∈ ts, motive t
  | [] => List.forall_mem_nil _
  | t :: rest =>
      List.forall_mem_cons.mpr ⟨induct operand combine divide t,
        inductAll operand combine divide rest⟩

end

end Arithmetic

namespace Expr

variable {m : Type → Type} [Monad m]

/-- The value as a number, or the error. -/
def numberOf (lookups : Lookups m) (e : Expr) : ExceptT EvalError m Int64 := do
  return (← e.evaluate lookups).asNumber

variable [LawfulMonad m] {lookups : Lookups m}

theorem foldNumbers_eq (combine : Int64 → Int64 → Int64) (acc : Int64) (args : List Expr) :
    foldNumbers lookups combine acc args = do
      let numbers ← args.mapM (numberOf lookups)
      return numbers.foldl combine acc := by
  induction args generalizing acc with
  | nil => simp [foldNumbers]
  | cons arg rest ih => simp [foldNumbers, numberOf, ih]

theorem evaluate_combination (c : Combination) (first : Expr) (rest : List Expr) :
    (Expr.call c.operator (first :: rest)).evaluate lookups = do
      let n ← first.numberOf lookups
      let others ← rest.mapM (numberOf lookups)
      return .number (Int64.ofInt (c.exact n.toInt (others.map Int64.toInt))) := by
  simp only [Combination.ofInt_exact_words]
  cases c with
  | sum =>
      have hstep : Combination.sum.step = (· + ·) := rfl
      simp [Combination.operator, evaluate, foldNumbers_eq, hstep]
  | product =>
      have hstep : Combination.product.step = (· * ·) := rfl
      simp [Combination.operator, evaluate, foldNumbers_eq, hstep]
  | difference =>
      have hstep : Combination.difference.step = (· - ·) := rfl
      simp [Combination.operator, evaluate, foldNumbers_eq, hstep, numberOf]

theorem evaluate_division (dividend divisor : Expr) :
    (Expr.call .div [dividend, divisor]).evaluate lookups = do
      let x ← dividend.numberOf lookups
      let y ← divisor.numberOf lookups
      if y = 0 then throw .divisionByZero else return .number (x / y) := by
  simp [evaluate, evaluateAt, numberOf]

theorem numberOf_combination (c : Combination) (first : Expr) (rest : List Expr) :
    (Expr.call c.operator (first :: rest)).numberOf lookups = do
      let n ← first.numberOf lookups
      let others ← rest.mapM (numberOf lookups)
      return Int64.ofInt (c.exact n.toInt (others.map Int64.toInt)) := by
  rw [numberOf, evaluate_combination]
  simp [Value.asNumber]

end Expr

namespace Arithmetic

open PanelSkin.Expr

variable {m : Type → Type} [Monad m] [LawfulMonad m] {lookups : Lookups m}

theorem mapM_numberOf_toExprs {ts : List (Arithmetic Expr)}
    (h : ∀ t ∈ ts, t.toExpr.numberOf lookups = do
      let numbers ← t.traverse fun e => Int64.toInt <$> e.numberOf lookups
      return Int64.ofInt numbers.exact) :
    (toExprs ts).mapM (numberOf lookups) = do
      let numbers ← traverseAll (fun e => Int64.toInt <$> e.numberOf lookups) ts
      return (exactAll numbers).map Int64.ofInt := by
  induction ts with
  | nil => simp [toExprs, traverseAll, exactAll]
  | cons t rest ih =>
      obtain ⟨hfirst, hrest⟩ := List.forall_mem_cons.mp h
      simp [toExprs, traverseAll, exactAll, hfirst, ih hrest]

/-- Reduction to words can wait until the end. -/
theorem numberOf_toExpr {t : Arithmetic Expr} (h : t.DivisionFree) :
    t.toExpr.numberOf lookups = do
      let numbers ← t.traverse fun e => Int64.toInt <$> e.numberOf lookups
      return Int64.ofInt numbers.exact := by
  induction h with
  | operand e => simp [toExpr, traverse, exact]
  | @combine c first rest _ _ ihfirst ihrest =>
      rw [toExpr, numberOf_combination, ihfirst, mapM_numberOf_toExprs ihrest]
      simp only [traverse, exact, bind_assoc, pure_bind, Combination.ofInt_exact_toInt]

end Arithmetic

namespace Execution

open Arithmetic

variable {m : Type → Type} [Monad m] {σ : Type}

/-- Evaluation of a tree comes to an error: an operand fails, or the divisor of a division is zero
as a number. What stands to the left of it has been evaluated before. -/
inductive Breaks (E : Execution m σ) (lookups : Lookups m) :
    σ → Arithmetic Expr → EvalError → Prop where
  | operand {s : σ} {e : Expr} {cause : EvalError} (h : E.Fails (e.evaluate lookups) s cause) :
      Breaks E lookups s (.operand e) cause
  | argument {s s' : σ} {c : Combination} {first arg : Arithmetic Expr}
      {rest before after : List (Arithmetic Expr)} {values : List Value} {cause : EvalError}
      (hsplit : first :: rest = before ++ arg :: after)
      (hbefore : E.Passes lookups c.operator s (toExprs before) values s')
      (harg : Breaks E lookups s' arg cause) : Breaks E lookups s (.combine c first rest) cause
  | dividend {s : σ} {a b : Arithmetic Expr} {cause : EvalError}
      (ha : Breaks E lookups s a cause) : Breaks E lookups s (.divide a b) cause
  | divisor {s s' : σ} {a b : Arithmetic Expr} {x : Value} {cause : EvalError}
      (ha : E.Returns (a.toExpr.evaluate lookups) s x s') (hb : Breaks E lookups s' b cause) :
      Breaks E lookups s (.divide a b) cause
  | zero {s s' s'' : σ} {a b : Arithmetic Expr} {x y : Value}
      (ha : E.Returns (a.toExpr.evaluate lookups) s x s')
      (hb : E.Returns (b.toExpr.evaluate lookups) s' y s'') (hzero : y.asNumber = 0) :
      Breaks E lookups s (.divide a b) .divisionByZero

variable {E : Execution m σ} {lookups : Lookups m} {s s' : σ} {cause : EvalError}

theorem fails_numberOf_iff {e : Expr} :
    E.Fails (e.numberOf lookups) s cause ↔ E.Fails (e.evaluate lookups) s cause :=
  fails_bind_of_safe fun _ _ => fails_pure

variable [LawfulMonad m]

/-- Evaluation fails by the errors that it comes to, and by no others. -/
theorem fails_toExpr_iff (t : Arithmetic Expr) :
    E.Fails (t.toExpr.evaluate lookups) s cause ↔ E.Breaks lookups s t cause := by
  induction t using Arithmetic.induct generalizing s with
  | operand e =>
      constructor
      · exact .operand
      · rintro ⟨h⟩
        exact h
  | combine c first rest ihfirst ihrest =>
      have ih := List.forall_mem_cons.mpr ⟨@ihfirst, @ihrest⟩
      have hcall : (combine c first rest).toExpr = .call c.operator (toExprs (first :: rest)) := by
        rw [toExpr, toExprs]
      have harity : c.operator.arity.accepts (toExprs (first :: rest)).length = true := by
        cases c <;> simp [Combination.operator, Operator.arity, Arity.accepts, toExprs]
      have hop : c.operator ≠ .div := by
        cases c <;> exact Operator.noConfusion
      rw [hcall, fails_call hop harity]
      constructor
      · rintro ⟨before, arg, after, values, between, hsplit, hbefore, harg⟩
        rw [toExprs_eq_map, List.map_eq_append_iff] at hsplit
        obtain ⟨before, others, hwhole, rfl, hothers⟩ := hsplit
        obtain ⟨t, after, rfl, rfl, -⟩ := List.map_eq_cons_iff.mp hothers
        have ht : t ∈ first :: rest := by simp [hwhole]
        rw [← toExprs_eq_map] at hbefore
        exact .argument hwhole hbefore ((ih t ht).mp harg)
      · intro h
        cases h with
        | @argument _ _ _ _ t _ before after values _ hsplit hbefore harg =>
            have ht : t ∈ first :: rest := by simp [hsplit]
            refine ⟨toExprs before, t.toExpr, toExprs after, values, _, ?_, hbefore,
              (ih t ht).mpr harg⟩
            rw [hsplit, toExprs_eq_map, toExprs_eq_map, toExprs_eq_map, List.map_append,
              List.map_cons]
  | divide a b iha ihb =>
      have hpasses (x y : Value) (last : σ) :
          E.Passes lookups .div s [a.toExpr, b.toExpr] [x, y] last ↔ ∃ s',
            E.Returns (a.toExpr.evaluate lookups) s x s' ∧
              E.Returns (b.toExpr.evaluate lookups) s' y last := passes_two fun _ => rfl
      rw [toExpr, fails_div, argFails_two fun _ => rfl, iha]
      simp only [ihb, hpasses]
      constructor
      · rintro ((ha | ⟨x, s', ha, hb⟩) | ⟨rfl, x, y, last, ⟨s', ha, hb⟩, hzero⟩)
        · exact .dividend ha
        · exact .divisor ha hb
        · exact .zero ha hb hzero
      · intro h
        cases h with
        | dividend ha => exact .inl (.inl ha)
        | divisor ha hb => exact .inl (.inr ⟨_, _, ha, hb⟩)
        | zero ha hb hzero => exact .inr ⟨rfl, _, _, _, ⟨_, ha, hb⟩, hzero⟩

/-- As a number an expression counts for zero where there is an error. -/
theorem run_evaluateNumber (e : Expr) :
    E.run (e.evaluateNumber lookups) s =
      (E.run (e.numberOf lookups).run s).map fun (outcome, s') =>
        (outcome.toOption.getD 0, s') := by
  have hnumber : e.evaluateNumber lookups = do
      let outcome ← (e.numberOf lookups).run
      return outcome.toOption.getD 0 := by
    unfold Expr.evaluateNumber Expr.evaluateOr Expr.numberOf
    rw [ExceptT.run_bind]
    simp only [bind_assoc]
    congr 1
    funext outcome
    cases outcome with
    | ok v => simp [Except.toOption]
    | error cause => simp [Except.toOption, Value.asNumber]
  rw [hnumber, E.run_bind_pure]
  rfl

end Execution

namespace Arithmetic

open PanelSkin.Expr

/-- A quotient of words is truncated towards zero. The one that is no word wraps round to the least
word. -/
theorem toInt_div_words (x y : Int64) : (x / y).toInt =
    if x = Int64.minValue ∧ y = -1 then Int64.minValue.toInt else x.toInt.tdiv y.toInt := by
  split
  · rename_i h
    obtain ⟨rfl, rfl⟩ := h
    decide
  · rename_i h
    by_cases hx : x = Int64.minValue
    · exact Int64.toInt_div_of_ne_right x y fun hy => h ⟨hx, hy⟩
    · exact Int64.toInt_div_of_ne_left x y hx

/-- Arithmetic of arguments of any kind, in any surroundings. Sums, differences and products are
those of the arguments' numbers, reduced to words. A tree of them has its exact value, reduced once
at the end. A quotient is truncated towards zero, and there is none exactly if the divisor is zero.
A tree fails by a division by zero that evaluation comes to anywhere in it, or with an operand, and
by nothing else; as a number it is then zero, and otherwise what it comes to. -/
theorem arithmetic_laws {m : Type → Type} [Monad m] [LawfulMonad m] (lookups : Lookups m) :
    (∀ (c : Combination) (first : Expr) (rest : List Expr),
      (Expr.call c.operator (first :: rest)).evaluate lookups = do
        let n ← first.numberOf lookups
        let others ← rest.mapM (numberOf lookups)
        return .number (Int64.ofInt (c.exact n.toInt (others.map Int64.toInt)))) ∧
    (∀ t : Arithmetic Expr, t.DivisionFree → t.toExpr.numberOf lookups = do
      let numbers ← t.traverse fun e => Int64.toInt <$> e.numberOf lookups
      return Int64.ofInt numbers.exact) ∧
    (∀ dividend divisor : Expr, (Expr.call .div [dividend, divisor]).evaluate lookups = do
      let x ← dividend.numberOf lookups
      let y ← divisor.numberOf lookups
      if y = 0 then throw .divisionByZero else return .number (x / y)) ∧
    (∀ x y : Int64, (x / y).toInt =
      if x = Int64.minValue ∧ y = -1 then Int64.minValue.toInt else x.toInt.tdiv y.toInt) ∧
    ∀ {σ : Type} (E : Execution m σ) (s : σ) (t : Arithmetic Expr),
      (∀ cause, E.Fails (t.toExpr.evaluate lookups) s cause ↔ E.Breaks lookups s t cause) ∧
      (t.toExpr.Saturated → ∀ cause, E.Breaks lookups s t cause → cause = .divisionByZero) ∧
      (∀ cause, E.Breaks lookups s t cause →
        ∃ s', E.run (t.toExpr.evaluateNumber lookups) s = some (0, s')) ∧
      ∀ n s', E.Returns (t.toExpr.numberOf lookups) s n s' →
        E.run (t.toExpr.evaluateNumber lookups) s = some (n, s') := by
  refine ⟨evaluate_combination, fun t => numberOf_toExpr, evaluate_division, toInt_div_words, ?_⟩
  intro σ E s t
  refine ⟨fun cause => Execution.fails_toExpr_iff t, ?_, ?_, ?_⟩
  · intro hsaturated cause hbreaks
    exact ((Execution.fails_evaluate hsaturated s cause).mp
      ((Execution.fails_toExpr_iff t).mpr hbreaks)).1
  · intro cause hbreaks
    have hfails := (Execution.fails_toExpr_iff t).mpr hbreaks
    obtain ⟨s', hrun⟩ := Execution.fails_numberOf_iff.mpr hfails
    exact ⟨s', by rw [Execution.run_evaluateNumber, hrun]; rfl⟩
  · intro n s' hreturns
    rw [Execution.run_evaluateNumber, hreturns]
    rfl

/-- The square of the greatest word less nine is less than zero once it is reduced. The tree with
the division is zero though what is added to the quotient is not. -/
theorem arithmetic_laws_of_square :
    let greatest : Arithmetic Expr := .operand (.number Int64.maxValue)
    let t : Arithmetic Expr := .combine .difference (.combine .product greatest [greatest])
      [.operand (.text ⟨[.literal "9px"]⟩)]
    let nothing : Arithmetic Expr :=
      .combine .difference (.operand (.number 3)) [.operand (.number 3)]
    let quotient : Arithmetic Expr := .divide (.operand (.number 5)) nothing
    let u : Arithmetic Expr := .combine .sum (.operand (.number 7)) [quotient]
    (t.DivisionFree ∧ t.toExpr.numberOf emptyWorld = pure (-8)) ∧
      Execution.immediate.Breaks emptyWorld () u .divisionByZero ∧
      Execution.immediate.run (u.toExpr.evaluateNumber emptyWorld) () = some (0, ()) := by
  intro greatest t nothing quotient u
  obtain ⟨-, hexact, -, -, hbreaks⟩ := arithmetic_laws emptyWorld
  have hfree : t.DivisionFree := by
    refine .combine (.combine (.operand _) ?_) ?_
    · exact List.forall_mem_singleton.mpr (.operand _)
    · exact List.forall_mem_singleton.mpr (.operand _)
  have hdivision : Execution.immediate.Breaks emptyWorld () u .divisionByZero := by
    have hseven : Execution.immediate.Passes emptyWorld .add () [.number 7] [.number 7] () :=
      .cons rfl rfl (.nil ())
    have hsplit : [.operand (.number 7), quotient] = [.operand (.number 7)] ++ quotient :: [] := rfl
    exact .argument hsplit hseven (.zero rfl rfl rfl)
  refine ⟨⟨hfree, ?_⟩, hdivision, ?_⟩
  · rw [hexact t hfree]
    rfl
  · obtain ⟨-, -, hzero, -⟩ := hbreaks Execution.immediate () u
    obtain ⟨_, hrun⟩ := hzero _ hdivision
    exact hrun

end Arithmetic

end PanelSkin
