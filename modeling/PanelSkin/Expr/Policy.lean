import PanelSkin.Expr.Error
import PanelSkin.Expr.Lookups

/-!
How long a computed value of a variable stays good.
-/

namespace PanelSkin

/-- When a kept value is computed again. -/
inductive Policy where
  /-- On every access: nothing is kept. -/
  | always
  /-- Once the tick time has moved past it. -/
  | tick
  /-- Once the switch time has moved past it. -/
  | switch
  /-- Never. -/
  | once
  /-- Once it is so many milliseconds old. -/
  | interval (span : Nat)
  deriving DecidableEq, Repr, Inhabited

namespace Policy

/-- Reads a policy: a word, or `interval:` and a number of milliseconds. -/
def parse (text : String) : Except ExprError Policy :=
  if text = "always" then .ok .always
  else if text = "tick" then .ok .tick
  else if text = "switch" then .ok .switch
  else if text = "once" then .ok .once
  else
    let lead := "interval:".toList
    let span? := if lead.isPrefixOf text.toList
      then Text.readNat64 (Text.trim (text.toList.drop lead.length)) else none
    match span? with
    | some span => .ok (.interval span)
    | none => .error (.invalidPolicy text)

/-- Whether a value kept since `time` is still good. -/
def isFresh (clock : Clock) (time : Nat) : Policy → Bool
  | .always => false
  | .once => true
  | .tick => clock.tick ≤ time
  | .switch => clock.switch ≤ time
  | .interval span => clock.now - time < span

end Policy

end PanelSkin
