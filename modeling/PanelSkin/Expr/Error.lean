import PanelSkin.Expr.Operator

/-!
What can be wrong with an expression: when it is read, and when it is evaluated.
-/

namespace PanelSkin

/-- Why a text is no expression or template. -/
inductive ExprError where
  | unknownToken (name : String)
  | unknownVariable (id : String)
  | unterminatedToken (text : String)
  | emptyToken (text : String)
  | unknownFunction (name : String)
  | arity (op : Operator) (found : Nat)
  | unterminatedString (text : String)
  | invalidNumber (literal : String)
  /-- A character that cannot stand where it does; the offset counts bytes. -/
  | unexpectedChar (found : Char) (offset : Nat) (text : String)
  | unexpectedEnd (text : String)
  | empty
  | invalidPolicy (text : String)
  deriving DecidableEq, Repr

def ExprError.message : ExprError → String
  | .unknownToken name => "unexpected token \x7b" ++ name ++ "\x7d"
  | .unknownVariable id => "unknown variable #" ++ id
  | .unterminatedToken text => "unterminated token in '" ++ text ++ "'"
  | .emptyToken text => "empty token in '" ++ text ++ "'"
  | .unknownFunction name => "unknown function '" ++ name ++ "'"
  | .arity op found =>
    "function '" ++ op.name ++ "' takes " ++ op.arity.words ++ " argument(s), got "
      ++ toString found
  | .unterminatedString text => "unterminated string literal in '" ++ text ++ "'"
  | .invalidNumber literal => "invalid number '" ++ literal ++ "'"
  | .unexpectedChar found offset text =>
    "unexpected '" ++ found.toString ++ "' at offset " ++ toString offset ++ " in '" ++ text ++ "'"
  | .unexpectedEnd text => "unexpected end of expression '" ++ text ++ "'"
  | .empty => "empty expression"
  | .invalidPolicy text => "invalid evaluate policy '" ++ text ++ "'"

inductive EvalError where
  | divisionByZero
  /-- An operator found fewer arguments than it reads; expressions that were read have enough. -/
  | missingArgument
  deriving DecidableEq, Repr

def EvalError.message : EvalError → String
  | .divisionByZero => "division by zero"
  | .missingArgument => "missing argument"

end PanelSkin
