import PanelSkin.Expr.Variable

/-!
What an expression can look up, and what asking for a variable can. Variables are asked for by the
ids that are written in an expression. Fonts are asked for by the value of an argument: where that
is written out there is one id, and any otherwise.
-/

namespace PanelSkin

/-- What a variable or a font is asked for by. -/
inductive Name where
  | variable (id : String)
  | font (id : String)
  deriving DecidableEq, Repr

namespace Expr

/-- The value of an expression that has it written out. -/
def constant? : Expr → Option Value
  | .number n => some (.number n)
  | .text template => template.asLiteral?.map .text
  | .reference _ | .call _ _ => none

/-- Evaluation can look the name up. -/
inductive Names : Expr → Name → Prop where
  | reference (id : String) : Names (.reference id) (.variable id)
  | segment {template : Template} {id : String}
      (hsegment : Segment.reference id ∈ template.segments) :
      Names (.text template) (.variable id)
  | argument {op : Operator} {args : List Expr} {arg : Expr} {name : Name} (harg : arg ∈ args)
      (hname : Names arg name) : Names (.call op args) name
  | fontMetric {metric : FontMetric} {arg : Expr} {rest : List Expr} {id : String}
      (hid : ∀ v, arg.constant? = some v → id = v.asText) :
      Names (.call (.fontMetric metric) (arg :: rest)) (.font id)
  | textExtent {extent : Extent} {arg : Expr} {rest : List Expr} {id : String}
      (hid : ∀ v, arg.constant? = some v → id = v.asText) :
      Names (.call (.textExtent extent) (arg :: rest)) (.font id)

/-- Whether the value can be a text that is read as a template. -/
def mayExpand : Expr → Bool
  | .number _ => false
  | .text template =>
    match template.asLiteral? with
    | some written => VariableDecl.isTemplateText written
    | none => true
  | .reference _ | .call .file _ | .call .trans _ => true
  | .call _ _ => false

end Expr

/-- Asking for a variable of this declaration can look the name up. A text that is read as a
template can name any variable. -/
inductive VariableDecl.Names (v : VariableDecl) : Name → Prop where
  | condition {condition : Expr} {name : Name} (hcondition : v.condition = some condition)
      (hname : condition.Names name) : Names v name
  | value {name : Name} (hname : v.value.Names name) : Names v name
  | expansion (hexpands : v.value.mayExpand = true) (id : String) : Names v (.variable id)

variable {m : Type → Type} [Monad m] {lookups : Lookups m}

theorem Template.evaluate_of_asLiteral {t : Template} {text : String}
    (h : t.asLiteral? = some text) : t.evaluate lookups = pure (.text text) := by
  unfold asLiteral? at h
  unfold evaluate
  split at h
  · cases h
    rename_i hsegments
    rw [hsegments]
  · cases h
    rename_i hsegments
    rw [hsegments]
    rfl
  · cases h

theorem Expr.evaluate_of_constant [LawfulMonad m] {e : Expr} {v : Value}
    (h : e.constant? = some v) : e.evaluate lookups = pure v := by
  cases e with
  | number n =>
      cases h
      rw [evaluate]
  | text template =>
      obtain ⟨text, htext, rfl⟩ := Option.map_eq_some_iff.mp h
      rw [evaluate, Template.evaluate_of_asLiteral htext]
      exact map_pure _ _
  | reference id => cases h
  | call op args => cases h

end PanelSkin
