import PanelSkin.Proofs.Expr.Termination

/-!
Which variables are read as templates. Only a text is read once more, and most operators give
none. So the names that a declaration can look up are those in its value and its condition, unless
its value may be such a text.
-/

namespace PanelSkin

variable {σ α β : Type}

/-- Every value that a computation leads to is a number or a truth value. -/
def Run.Plain (x : ExceptT EvalError (Run σ) Value) : Prop :=
  Run.Ensures x.run fun outcome => ∀ value, outcome = .ok value → value.isText = false

theorem Run.plain_pure {v : Value} (hv : v.isText = false) :
    Run.Plain (pure v : ExceptT EvalError (Run σ) Value) :=
  .pure fun _ hvalue => Except.ok.inj hvalue ▸ hv

theorem Run.plain_throw {e : EvalError} :
    Run.Plain (throw e : ExceptT EvalError (Run σ) Value) :=
  .pure fun _ hvalue => by cases hvalue

theorem Run.plain_bind {x : ExceptT EvalError (Run σ) α} {f : α → ExceptT EvalError (Run σ) Value}
    (hf : ∀ a, Run.Plain (f a)) : Run.Plain (x >>= f) := by
  apply (Run.Ensures.anyway x.run).bind
  intro outcome _
  cases outcome with
  | ok a => exact hf a
  | error e => exact plain_throw

theorem Expr.measured_plain {n : Option Int} :
    Run.Plain (pure (measured n) : ExceptT EvalError (Run σ) Value) := by
  cases n with
  | none => exact Run.plain_pure rfl
  | some n => exact Run.plain_pure rfl

/-- Apart from those that give a path or a translated text, operators give no texts. -/
theorem Expr.call_plain {lookups : Lookups (Run σ)} {op : Operator} {args : List Expr}
    (h : (Expr.call op args).mayExpand = false) :
    Run.Plain ((Expr.call op args).evaluate lookups) := by
  cases op with
  | file => cases h
  | trans => cases h
  | sub =>
      cases args with
      | nil =>
          rw [Expr.evaluate]
          exact Run.plain_throw
      | cons first rest =>
          rw [Expr.evaluate]
          exact Run.plain_bind fun _ => Run.plain_bind fun _ => Run.plain_pure rfl
  | div =>
      rw [Expr.evaluate]
      apply Run.plain_bind
      intro dividend
      apply Run.plain_bind
      intro divisor
      split
      · exact Run.plain_throw
      · exact Run.plain_pure rfl
  | compare relation =>
      rw [Expr.evaluate]
      exact Run.plain_bind fun _ => Run.plain_bind fun _ => Run.plain_pure rfl
  | textExtent extent =>
      rw [Expr.evaluate]
      exact Run.plain_bind fun _ => Run.plain_bind fun _ => Run.plain_bind fun _ => measured_plain
  | fontMetric metric =>
      rw [Expr.evaluate]
      exact Run.plain_bind fun _ => Run.plain_bind fun _ => measured_plain
  | pictureSide extent =>
      rw [Expr.evaluate]
      exact Run.plain_bind fun _ => Run.plain_bind fun _ => measured_plain
  | queryFeature =>
      rw [Expr.evaluate]
      exact Run.plain_bind fun _ => Run.plain_bind fun _ => Run.plain_pure rfl
  | not | and | or | add | mul =>
      rw [Expr.evaluate]
      exact Run.plain_bind fun _ => Run.plain_pure rfl

/-- A value that is not read as a template. -/
def Value.Settled (v : Value) : Prop :=
  ∀ text, v = .text text → VariableDecl.isTemplateText text = false

theorem Value.settled_of_isText {v : Value} (h : v.isText = false) : v.Settled := by
  rintro text rfl
  cases h

theorem Expr.evaluate_settled {lookups : Lookups (Run σ)} {e : Expr} (h : e.mayExpand = false) :
    Run.Ensures (e.evaluate lookups).run fun outcome =>
      ∀ value, outcome = .ok value → value.Settled := by
  cases e with
  | number n =>
      rw [Expr.evaluate]
      exact .pure fun value hvalue => Except.ok.inj hvalue ▸ Value.settled_of_isText rfl
  | text template =>
      cases hliteral : template.asLiteral? with
      | none => simp [mayExpand, hliteral] at h
      | some written =>
          have hconstant : (Expr.text template).constant? = some (.text written) := by
            simp [constant?, hliteral]
          rw [Expr.evaluate_of_constant hconstant]
          refine .pure fun value hvalue => ?_
          cases hvalue
          rintro text ⟨⟩
          simpa [mayExpand, hliteral] using h
  | reference id => cases h
  | call op args =>
      apply (call_plain h).imp
      exact fun outcome hplain value hvalue => Value.settled_of_isText (hplain value hvalue)

/-- The value of an expression that cannot be a text to be read again is none. -/
theorem Expr.evaluateOr_settled {lookups : Lookups (Run σ)} {e : Expr}
    (h : e.mayExpand = false) :
    Run.Ensures (e.evaluateOr lookups (.boolean false)) Value.Settled := by
  apply (evaluate_settled h).bind
  intro outcome houtcome
  cases outcome with
  | ok value => exact .pure (houtcome value rfl)
  | error cause => exact .pure (Value.settled_of_isText rfl)

theorem returning_bind_of_ensures {flags : List Bool} {x y : Run σ α} {f g : α → Run σ β}
    {P : α → Prop} (hxy : (returning flags).rel x y) (hx : Run.Ensures x P)
    (hfg : ∀ a, P a → (returning flags).rel (f a) (g a)) :
    (returning flags).rel (x >>= f) (y >>= g) := by
  intro cells st hflags
  obtain ⟨a, between, st', hbetween, hrun, hagain⟩ := hxy cells st hflags
  have ha := hx.of_run cells st a between st' hrun
  obtain ⟨b, after, st'', hafter, hf, hg⟩ := hfg a ha between st' hbetween
  refine ⟨b, after, st'', hafter, ?_, ?_⟩
  · rw [Run.bind_run, hrun]
    exact hf
  · rw [Run.bind_run, hagain]
    exact hg

section Declarations

variable {flags : List Bool} {names : Name → Prop} {l k : Lookups (Run σ)}

theorem VariableDecl.compute_returning (h : (returning flags).LookupsOn names l k)
    {v : VariableDecl} (hnames : ∀ name, v.Names name → names name) :
    (returning flags).rel (v.compute l) (v.compute k) := by
  have hvalue := h.evaluateOr (.boolean false) fun name hname => hnames name (.value hname)
  have hexpands : Run.Ensures (v.value.evaluateOr l (.boolean false)) fun value =>
      value.Settled ∨ ∀ id, names (.variable id) := by
    cases hexpands : v.value.mayExpand with
    | true =>
        apply (Run.Ensures.anyway _).imp
        exact fun _ _ => .inr fun id => hnames _ (.expansion hexpands id)
    | false => exact (Expr.evaluateOr_settled hexpands).imp fun _ => .inl
  apply returning_bind_of_ensures hvalue hexpands
  intro value hvalue
  cases value with
  | number n => exact (returning flags).rel_pure _
  | boolean b => exact (returning flags).rel_pure _
  | text text =>
      dsimp only
      split
      · rename_i htemplate
        have hall : ∀ id, names (.variable id) :=
          hvalue.resolve_left fun hsettled => by simp [hsettled text rfl] at htemplate
        apply (returning flags).rel_bind (h.parseTemplate text hall)
        intro parsed
        cases parsed with
        | ok template => exact h.template template fun id _ => hall id
        | error cause => exact (returning flags).rel_pure _
      · exact (returning flags).rel_pure _

/-- A declaration is served alike if the names are that it can look up. -/
theorem VariableDecl.served_of_names (h : (returning flags).LookupsOn names l k)
    {v : VariableDecl} (hnames : ∀ name, v.Names name → names name) : v.Served flags l k where
  condition _ hcondition :=
    h.evaluateBool fun name hname => hnames name (.condition hcondition hname)
  value := compute_returning h hnames

end Declarations

end PanelSkin
