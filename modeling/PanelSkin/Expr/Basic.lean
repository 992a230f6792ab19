import PanelSkin.Expr.Template

/-!
Expressions: templates, numbers, variables and calls of operators, and their values. Arguments
are evaluated from left to right, and those after a deciding argument of `and` and `or` not at
all.
-/

namespace PanelSkin

inductive Expr where
  | text (template : Template)
  | number (n : Int64)
  | reference (id : String)
  | call (op : Operator) (args : List Expr)
  deriving Repr

namespace Expr

instance : Inhabited Expr := ⟨.number 0⟩

/-- A number, or text without tokens, never changes. -/
def isConstant : Expr → Bool
  | .number _ => true
  | .text template => template.asLiteral?.isSome
  | .reference _ | .call _ _ => false

variable {m : Type → Type} [Monad m]

/-- A number that may be missing; what is missing is false. -/
def measured (n : Option Int) : Value :=
  match n with
  | some n => .ofInt n
  | none => .boolean false

mutual

def evaluate (lookups : Lookups m) : Expr → ExceptT EvalError m Value
  | .text template => ExceptT.lift (template.evaluate lookups)
  | .number n => pure (.number n)
  | .reference id => do return (← lookups.variableValue id).getD (.boolean false)
  | .call .not args => do return .boolean !(← evaluateAt lookups 0 args).asBool
  | .call .and args => do return .boolean (← allTrue lookups args)
  | .call .or args => do return .boolean (← anyTrue lookups args)
  | .call (.compare relation) args => do
    let a ← evaluateAt lookups 0 args
    let b ← evaluateAt lookups 1 args
    return .boolean (relation.holds (a.compare b))
  | .call .file args => do
    let path := (← evaluateAt lookups 0 args).asText
    match ← lookups.pictureSize path with
    | some _ => return .text path
    | none => return .boolean false
  | .call .trans args => do
    return .text (← lookups.translate (← evaluateAt lookups 0 args).asText)
  | .call .add args => do return .number (← foldNumbers lookups (· + ·) 0 args)
  | .call .mul args => do return .number (← foldNumbers lookups (· * ·) 1 args)
  | .call .sub [] => throw .missingArgument
  | .call .sub (first :: rest) => do
    let first ← evaluate lookups first
    return .number (← foldNumbers lookups (· - ·) first.asNumber rest)
  | .call .div args => do
    let dividend ← evaluateAt lookups 0 args
    let divisor ← evaluateAt lookups 1 args
    if divisor.asNumber = 0 then throw .divisionByZero
    else return .number (dividend.asNumber / divisor.asNumber)
  | .call (.fontMetric metric) args => do
    let font := (← evaluateAt lookups 0 args).asText
    return measured (← lookups.fontMetric font metric)
  | .call (.textExtent extent) args => do
    let font := (← evaluateAt lookups 0 args).asText
    let text := (← evaluateAt lookups 1 args).asText
    return measured (← lookups.textExtent font text extent)
  | .call (.pictureSide extent) args => do
    let path := (← evaluateAt lookups 0 args).asText
    let size ← lookups.pictureSize path
    return measured (size.map fun (w, h) => if extent = .width then (w : Int) else h)
  | .call .queryFeature args => do
    let feature := (← evaluateAt lookups 0 args).asText
    let level ← lookups.feature feature
    return .boolean (level.any (· != 0))

/-- The value of the argument at an index. -/
def evaluateAt (lookups : Lookups m) : Nat → List Expr → ExceptT EvalError m Value
  | _, [] => throw .missingArgument
  | 0, arg :: _ => evaluate lookups arg
  | index + 1, _ :: rest => evaluateAt lookups index rest

/-- Whether all are true; stops at the first that is not. -/
def allTrue (lookups : Lookups m) : List Expr → ExceptT EvalError m Bool
  | [] => pure true
  | arg :: rest => do
    if (← evaluate lookups arg).asBool then allTrue lookups rest else return false

/-- Whether one is true; stops at the first that is. -/
def anyTrue (lookups : Lookups m) : List Expr → ExceptT EvalError m Bool
  | [] => pure false
  | arg :: rest => do
    if (← evaluate lookups arg).asBool then return true else anyTrue lookups rest

/-- Combines a number with the numbers of the arguments, in order. -/
def foldNumbers (lookups : Lookups m) (combine : Int64 → Int64 → Int64) (acc : Int64) :
    List Expr → ExceptT EvalError m Int64
  | [] => pure acc
  | arg :: rest => do
    let value ← evaluate lookups arg
    foldNumbers lookups combine (combine acc value.asNumber) rest

end

/-- The value, or `default` where there is none. -/
def evaluateOr (lookups : Lookups m) (default : Value) (e : Expr) : m Value := do
  match ← (e.evaluate lookups).run with
  | .ok value => return value
  | .error _ => return default

/-- The value as a number; an error counts as zero. -/
def evaluateNumber (lookups : Lookups m) (e : Expr) : m Int64 := do
  return (← e.evaluateOr lookups (.number 0)).asNumber

/-- The value as a truth value; an error counts as false. -/
def evaluateBool (lookups : Lookups m) (e : Expr) : m Bool := do
  return (← e.evaluateOr lookups (.boolean false)).asBool

end Expr

end PanelSkin
