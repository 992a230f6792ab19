import PanelSkin.Expr.Parser
import PanelSkin.Expr.Policy

/-!
Variables: named expressions with an optional condition and a policy for keeping their values.
Several declarations may share an id; the first whose condition holds is the variable. A text
value with tokens or a whole reference in it is read as a template and evaluated once more.

Declarations never change. What does is one cell per declaration: the value kept, and a flag
that is up while the declaration is being evaluated. A declaration that is met again while its
flag is up is part of a cycle and counts as false.
-/

namespace PanelSkin

structure VariableDecl where
  id : String
  value : Expr
  condition : Option Expr := none
  policy : Policy := .always
  deriving Repr, Inhabited

/-- All variables, in declaration order. -/
structure VariableTable where
  declarations : List VariableDecl := []
  deriving Repr, Inhabited

/-- A value computed earlier, and when. -/
structure Kept where
  value : Value
  time : Nat
  deriving DecidableEq, Repr

structure VariableCell where
  kept : Option Kept := none
  evaluating : Bool := false
  deriving DecidableEq, Repr, Inhabited

abbrev Cells := List VariableCell

/-- The cell of the declaration at an index. -/
def Cells.cell (cells : Cells) (index : Nat) : VariableCell := cells[index]?.getD {}

/-- Evaluation over the cells and some further state `σ`. It has no outcome when the bound on
nested lookups is reached. -/
abbrev Run (σ : Type) := StateT Cells (StateT σ Option)

/-- No outcome. -/
def Run.exhausted {σ α : Type} : Run σ α := fun _ _ => none

variable {σ α : Type}

/-- Runs `action` with the flag of a declaration up; if it is up already the declaration refers
to itself, and the outcome is `fallback`. -/
def guarded (index : Nat) (fallback : α) (action : Run σ α) : Run σ α := do
  if ((← get).cell index).evaluating then return fallback
  modify fun cells => cells.modify index ({ · with evaluating := true })
  let a ← action
  modify fun cells => cells.modify index ({ · with evaluating := false })
  return a

namespace VariableDecl

/-- Whether the declaration at an index applies: it has no condition, or a true one. -/
def holds (lookups : Lookups (Run σ)) (index : Nat) (v : VariableDecl) : Run σ Bool :=
  match v.condition with
  | none => pure true
  | some condition => guarded index false (condition.evaluateBool lookups)

/-- Whether a text has to be read as a template. -/
def isTemplateText (text : String) : Bool :=
  text.toList.contains '{' || text.toList.head? == some '#'

/-- The value computed anew. A text that cannot be read as a template stands for itself. -/
def compute {m : Type → Type} [Monad m] (lookups : Lookups m) (v : VariableDecl) : m Value := do
  let value ← v.value.evaluateOr lookups (.boolean false)
  match value with
  | .text text =>
    if isTemplateText text then
      match ← Template.parse lookups text with
      | .ok template => template.evaluate lookups
      | .error _ => return value
    else return value
  | _ => return value

/-- Computes the value and keeps it if the policy keeps any. -/
def refresh (lookups : Lookups (Run σ)) (index : Nat) (v : VariableDecl) : Run σ Value := do
  let value ← guarded index (.boolean false) (v.compute lookups)
  if v.policy ≠ .always then
    modify fun cells =>
      cells.modify index ({ · with kept := some ⟨value, lookups.clock.now⟩ })
  return value

/-- The value of the declaration at an index: the one kept while it is fresh, or a new one. -/
def current (lookups : Lookups (Run σ)) (index : Nat) (v : VariableDecl) : Run σ Value := do
  match ((← get).cell index).kept with
  | some kept =>
    if v.policy.isFresh lookups.clock kept.time then return kept.value
    else v.refresh lookups index
  | none => v.refresh lookups index

end VariableDecl

namespace VariableTable

/-- The first of some declarations that has the id and applies, with its index; `index` is that
of the first of them. -/
def selectFrom (lookups : Lookups (Run σ)) (id : String) (index : Nat) :
    List VariableDecl → Run σ (Option (Nat × VariableDecl))
  | [] => pure none
  | v :: rest => do
    if v.id = id then
      if ← v.holds lookups index then return some (index, v)
      else selectFrom lookups id (index + 1) rest
    else selectFrom lookups id (index + 1) rest

/-- The declaration that is the variable with an id. -/
def select (lookups : Lookups (Run σ)) (t : VariableTable) (id : String) :
    Run σ (Option (Nat × VariableDecl)) :=
  selectFrom lookups id 0 t.declarations

/-- The value of the variable with an id. -/
def value (lookups : Lookups (Run σ)) (t : VariableTable) (id : String) :
    Run σ (Option Value) := do
  match ← t.select lookups id with
  | some (index, v) => return some (← v.current lookups index)
  | none => return none

def size (t : VariableTable) : Nat := t.declarations.length

def contains (t : VariableTable) (id : String) : Bool := t.declarations.any (·.id == id)

def push (t : VariableTable) (v : VariableDecl) : VariableTable := ⟨t.declarations ++ [v]⟩

/-- Lookups in which variables that `outer` does not know come from the table; variables that
refer to each other nest at most `bound` deep. -/
def lookups (outer : Lookups (Run σ)) (t : VariableTable) : Nat → Lookups (Run σ)
  | 0 =>
    { outer with
      variableText := fun _ => Run.exhausted
      variableValue := fun _ => Run.exhausted }
  | bound + 1 =>
    let inner := lookups outer t bound
    { outer with
      variableText := fun id => do
        match ← outer.variableText id with
        | some text => return some text
        | none => return (← t.value inner id).map Value.asText
      variableValue := fun id => do
        match ← outer.variableValue id with
        | some value => return some value
        | none => t.value inner id }

/-- A bound on nesting that no evaluation reaches: every level below the first has one more flag
up. -/
def depth (t : VariableTable) : Nat := t.size + 2

end VariableTable

def Cells.invalidate (cells : Cells) : Cells := cells.map ({ · with kept := none })

/-- Cells without the kept value of one declaration. -/
def Cells.invalidateAt (cells : Cells) (index : Nat) : Cells :=
  cells.modify index ({ · with kept := none })

end PanelSkin
