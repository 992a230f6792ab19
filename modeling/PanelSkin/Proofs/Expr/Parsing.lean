import PanelSkin.Expr.Parser
import PanelSkin.Proofs.Expr.Correspondence

/-!
Reading one expression in two settings. While a text is read the variables that it is made of are
looked up, and nothing else is. So what is read, or the error, stands in the relation in which the
lookups stand.
-/

namespace PanelSkin.Correspondence

variable {m n : Type → Type} [Monad m] [Monad n] [LawfulMonad m] [LawfulMonad n]

/-- The same relation between computations that can be without an outcome. -/
def option (R : Correspondence m n) : Correspondence (OptionT m) (OptionT n) where
  rel x y := R.rel x.run y.run
  rel_pure a := R.rel_pure (some a)
  rel_bind {α β x y f g} hxy hfg := by
    rw [OptionT.run_bind, OptionT.run_bind]
    apply R.rel_bind hxy
    intro outcome
    cases outcome with
    | none => exact R.rel_pure (none : Option β)
    | some a => exact hfg a

variable {R : Correspondence m n} {l : PanelSkin.Lookups m} {k : PanelSkin.Lookups n}
  {whole : String}

/-- Steps of reading that stand in the relation. -/
abbrev reading (R : Correspondence m n) :
    Correspondence (Expr.Reading m) (Expr.Reading n) := R.option.except ExprError

theorem reading_fail {α : Type} :
    R.reading.rel (ExceptT.mk OptionT.fail : Expr.Reading m α) (ExceptT.mk OptionT.fail) :=
  R.rel_pure (none : Option (Except ExprError α))

theorem reading_except {α : Type} (x : Except ExprError α) :
    R.reading.rel (liftM x : Expr.Reading m α) (liftM x) := by
  cases x with
  | ok a => exact except_pure a
  | error e => exact except_throw e

theorem Lookups.readTemplate (h : R.Lookups l k) (text : List Char) :
    R.reading.rel (Expr.readTemplate l text) (Expr.readTemplate k text) := by
  have hparse : R.reading.rel
      (ExceptT.mk (OptionT.lift (Template.parse l (String.ofList text))))
      (ExceptT.mk (OptionT.lift (Template.parse k (String.ofList text)))) :=
    R.rel_bind (h.parseTemplate _) fun read => R.rel_pure (some read)
  exact R.reading.rel_bind hparse fun _ => except_pure _

theorem reading_call (op : Operator) (read : List Expr × List Char) :
    R.reading.rel (do return (← Expr.checkedCall op read.1, read.2) : Expr.Reading m _)
      (do return (← Expr.checkedCall op read.1, read.2)) :=
  R.reading.rel_bind (reading_except _) fun _ => except_pure _

mutual

theorem Lookups.readExpr (h : R.Lookups l k) : ∀ (bound : Nat) (inCall : Bool) (s : List Char),
    R.reading.rel (Expr.readExpr l whole bound inCall s) (Expr.readExpr k whole bound inCall s)
  | 0, _, _ => by
      rw [Expr.readExpr, Expr.readExpr]
      exact reading_fail
  | bound + 1, inCall, s => by
      have htemplate (text after : List Char) : R.reading.rel
          (do return (← Expr.readTemplate l text, after))
          (do return (← Expr.readTemplate k text, after)) :=
        R.reading.rel_bind (h.readTemplate text) fun _ => except_pure _
      rw [Expr.readExpr, Expr.readExpr]
      cases Text.trimStart s with
      | nil => exact except_throw _
      | cons c rest =>
          dsimp only
          split
          · cases Expr.readQuoted rest with
            | none => exact except_throw _
            | some quoted => exact htemplate _ _
          split
          · exact htemplate _ _
          split
          · exact reading_except _
          split
          · exact reading_except _
          split
          · split
            · cases Operator.ofName? _ with
              | none => exact except_throw _
              | some op =>
                  dsimp only
                  split
                  · exact R.reading.rel_bind (except_pure _) (reading_call op)
                  · exact R.reading.rel_bind (h.readArgs bound _) (reading_call op)
            · exact except_throw _
          · exact except_throw _

theorem Lookups.readArgs (h : R.Lookups l k) : ∀ (bound : Nat) (s : List Char),
    R.reading.rel (Expr.readArgs l whole bound s) (Expr.readArgs k whole bound s)
  | 0, _ => by
      rw [Expr.readArgs, Expr.readArgs]
      exact reading_fail
  | bound + 1, s => by
      rw [Expr.readArgs, Expr.readArgs]
      apply R.reading.rel_bind (h.readExpr bound true s)
      intro first
      dsimp only
      split
      · exact R.reading.rel_bind (h.readArgs bound _) fun _ => except_pure _
      · exact except_pure _
      · exact except_throw _

end

theorem Lookups.parse (h : R.Lookups l k) (text : String) :
    R.rel (Expr.parse l text) (Expr.parse k text) := by
  unfold Expr.parse
  dsimp only
  split
  · exact R.rel_pure _
  · have hread : R.rel (Expr.readExpr l text _ false (Text.trimStart text.toList)).run.run
        (Expr.readExpr k text _ false (Text.trimStart text.toList)).run.run :=
      h.readExpr ((Text.trimStart text.toList).length + 1) false _
    apply R.rel_bind hread
    intro outcome
    cases outcome with
    | none => exact R.rel_pure _
    | some result =>
        cases result with
        | error e => exact R.rel_pure _
        | ok read =>
            dsimp only
            split
            · exact R.rel_pure _
            · exact R.rel_pure _

end PanelSkin.Correspondence
