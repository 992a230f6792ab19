import PanelSkin.Proofs.Expr.Cursor
import PanelSkin.Proofs.Expr.RoundTrip

/-!
Reading expressions by places in the text. The reader moves on with every character it takes, cuts
what it needs between two places, and steps back once, in front of a character that ends no
argument.
-/

namespace PanelSkin.Expr

variable {m : Type → Type} [Monad m]

namespace Cursor

/-- A number that began at a place, from its digits on. -/
def digits (text : String) (start : Nat) : Cursor m Expr := do
  let _ ← takeWhile text Char.isDigit
  let literal ← passed text start
  match Text.readInt64 literal with
  | some n => return .number (Int64.ofInt n)
  | none => throw (.invalidNumber (String.ofList literal))

/-- A number: an optional sign, then digits. -/
def number (text : String) : Cursor m Expr := do
  let start ← get
  match ← peek text with
  | none => digits text start
  | some c =>
    if c = '-' ∨ c = '+' then
      let _ ← advance text
      digits text start
    else digits text start

/-- What stands behind a backslash. -/
def behindSlash (text : String) (c : Char) : Cursor m (Option Char) :=
  if c = '\\' then peek text else pure none

/-- A quoted text behind its first quote, with what has been read of it last character first. -/
def quoted (text : String) : Nat → List Char → Cursor m (List Char)
  | 0, _ => breakOff
  | bound + 1, content => do
    match ← advance text with
    | none => throw (.unterminatedString text)
    | some c =>
      if (← behindSlash text c) = some '\'' then
        let _ ← advance text
        quoted text bound ('\'' :: content)
      else if c = '\'' then return content.reverse
      else quoted text bound (c :: content)

/-- A bare template, within as many calls as `depth` tells, up to where it ends. -/
def passBare (text : String) (depth : Nat) : Nat → Nat → Cursor m Unit
  | 0, _ => breakOff
  | bound + 1, braces => do
    match ← peek text with
    | none => return ()
    | some c =>
      if 0 < depth ∧ braces = 0 ∧ (c = ',' ∨ c = ')') then return ()
      else
        let _ ← advance text
        passBare text depth bound
          (if c = '{' then braces + 1 else if c = '}' then braces - 1 else braces)

def bare (text : String) (depth : Nat) : Cursor m (List Char) := do
  let start ← get
  passBare text depth (rounds text) 0
  passed text start

/-- A variable behind its number sign. -/
def reference (text : String) : Cursor m Expr := do
  let id ← takeWhile text isIdentifierChar
  if isIdentifier id then return .reference (String.ofList id)
  else unexpectedHere text

def template (lookups : Lookups m) (s : List Char) : Cursor m Expr :=
  StateT.lift (readTemplate lookups s)

/-- The arguments behind an opening parenthesis, given how they are read if there are any. -/
def arguments (text : String) (args : Cursor m (List Expr)) : Cursor m (List Expr) := do
  skipBlanks text
  if (← peek text) = some ')' then
    let _ ← advance text
    return []
  else args

/-- A call, given how its arguments are read if there are any. -/
def call (text : String) (args : Cursor m (List Expr)) : Cursor m Expr := do
  let name ← takeWhile text isIdentifierChar
  skipBlanks text
  if (← peek text) = some '(' then
    match Operator.ofName? (String.ofList name) with
    | none => throw (.unknownFunction (String.ofList name))
    | some op =>
      let _ ← advance text
      let args ← arguments text args
      StateT.lift (liftM (checkedCall op args))
  else unexpectedHere text

mutual

/-- One expression, within as many calls as `depth` tells. -/
def expr (lookups : Lookups m) (text : String) : Nat → Nat → Cursor m Expr
  | 0, _ => breakOff
  | bound + 1, depth => do
    skipBlanks text
    match ← peek text with
    | none => throw (.unexpectedEnd text)
    | some c =>
      if c = '\'' then
        let _ ← advance text
        template lookups (← quoted text (rounds text) [])
      else if c = '{' then template lookups (Text.trimEnd (← bare text depth))
      else if c = '#' then
        let _ ← advance text
        reference text
      else if c = '-' ∨ c = '+' ∨ c.isDigit then number text
      else if isIdentifierStart c then call text (args lookups text bound (depth + 1))
      else unexpected text c

/-- The arguments of a call up to the closing parenthesis. In front of a character that can follow
no argument the reader steps back. -/
def args (lookups : Lookups m) (text : String) : Nat → Nat → Cursor m (List Expr)
  | 0, _ => breakOff
  | bound + 1, depth => do
    let arg ← expr lookups text bound depth
    skipBlanks text
    match ← advance text with
    | none => throw (.unexpectedEnd text)
    | some c =>
      if c = ',' then return arg :: (← args lookups text bound depth)
      else if c = ')' then return [arg]
      else
        moveTo text ((← get) - c.utf8Size)
        unexpected text c

end

/-- A whole text as one expression. -/
def whole (lookups : Lookups m) (text : String) (bound : Nat) : Cursor m Expr := do
  skipBlanks text
  if text.utf8ByteSize ≤ (← get) then throw .empty
  else
    let e ← expr lookups text bound 0
    skipBlanks text
    match ← peek text with
    | none => return e
    | some c => unexpected text c

/-- Reads a text by places; nothing if reading breaks off. -/
def parse (lookups : Lookups m) (text : String) (bound : Nat) :
    m (Option (Except ExprError Expr)) :=
  ((whole lookups text bound).run' 0).run.run

section Steps

variable [LawfulMonad m] {text : String} {s rest : List Char}

/-- What is read, with the place in front of the rest. -/
def atPlace {α : Type} (text : String) : Except ExprError (α × List Char) → Reading m (α × Nat)
  | .ok (a, rest) => pure (a, place text.toList rest)
  | .error e => throw e

/-- A sign in front of what is left; there may be none only if that does not begin with one. -/
def Signs (sign rest : List Char) : Prop :=
  sign = ['-'] ∨ sign = ['+'] ∨ sign = [] ∧ ∀ c ∈ rest.head?, c ≠ '-' ∧ c ≠ '+'

theorem Signs.single {c : Char} (hc : c = '-' ∨ c = '+') : Signs [c] rest := by
  rcases hc with rfl | rfl
  · exact Or.inl rfl
  · exact Or.inr (Or.inl rfl)

theorem Signs.none (h : ∀ c ∈ rest.head?, ¬ (c = '-' ∨ c = '+')) : Signs [] rest :=
  Or.inr (Or.inr ⟨rfl, fun c hc => not_or.mp (h c hc)⟩)

theorem readNumber_signed {sign digits : List Char} (h : Signs sign digits) :
    readNumber (sign ++ digits) =
      match Text.readInt64 (sign ++ digits.takeWhile Char.isDigit) with
      | some n => .ok (.number (Int64.ofInt n), digits.dropWhile Char.isDigit)
      | none =>
        .error (.invalidNumber (String.ofList (sign ++ digits.takeWhile Char.isDigit))) := by
  rcases h with rfl | rfl | ⟨rfl, hplain⟩
  · rfl
  · rfl
  · rw [List.nil_append]
    unfold readNumber
    split
    rename_i hsign
    split at hsign
    · exact absurd rfl (hplain '-' rfl).1
    · exact absurd rfl (hplain '+' rfl).2
    · cases hsign
      rfl

theorem digits_run {sign rest : List Char} (hsign : Signs sign rest)
    (h : sign ++ rest <:+ text.toList) :
    (digits text (place text.toList (sign ++ rest)) : Cursor m _).run (place text.toList rest) =
      atPlace text (readNumber (sign ++ rest)) := by
  have hrest : rest <:+ text.toList := (List.suffix_append sign rest).trans h
  have hpassed := @passed_run m _ _ text (rest.dropWhile Char.isDigit)
    (sign ++ rest.takeWhile Char.isDigit)
  rw [List.append_assoc, List.takeWhile_append_dropWhile] at hpassed
  rw [digits, StateT.run_bind, takeWhile_run _ hrest, pure_bind, StateT.run_bind, hpassed h,
    pure_bind, readNumber_signed hsign]
  cases Text.readInt64 (sign ++ rest.takeWhile Char.isDigit) with
  | none => simp [atPlace]
  | some n => rfl

theorem number_run (h : s <:+ text.toList) :
    (number text : Cursor m _).run (place text.toList s) = atPlace text (readNumber s) := by
  rw [number, StateT.run_bind, StateT.run_get, pure_bind, StateT.run_bind, peek_run h, pure_bind]
  cases s with
  | nil => exact @digits_run m _ _ text [] [] (.none (by simp)) h
  | cons c rest =>
      dsimp only [List.head?_cons]
      by_cases hc : c = '-' ∨ c = '+'
      · rw [if_pos hc, StateT.run_bind, advance_run_cons h, pure_bind]
        exact @digits_run m _ _ text [c] rest (.single hc) h
      · rw [if_neg hc]
        exact @digits_run m _ _ text [] (c :: rest) (.none (by simpa using hc)) h

theorem behindSlash_run (h : s <:+ text.toList) (c : Char) :
    (behindSlash text c : Cursor m _).run (place text.toList s) =
      pure (if c = '\\' then s.head? else none, place text.toList s) := by
  unfold behindSlash
  split
  · exact peek_run h
  · rfl

theorem quoted_run {bound : Nat} (content : List Char) (h : s <:+ text.toList)
    (hbound : s.length < bound) :
    (quoted text bound content : Cursor m _).run (place text.toList s) =
      match readQuoted s with
      | none => throw (.unterminatedString text)
      | some (quoted, rest) => pure (content.reverse ++ quoted, place text.toList rest) := by
  induction bound generalizing s content with
  | zero => exact absurd hbound (Nat.not_lt_zero _)
  | succ bound ih =>
      rw [quoted, StateT.run_bind]
      cases s with
      | nil =>
          rw [advance_run_nil h, pure_bind]
          simp [readQuoted]
      | cons c rest =>
          have hrest : rest <:+ text.toList := (List.suffix_cons c rest).trans h
          have hlength : rest.length < bound := Nat.lt_of_succ_lt_succ hbound
          rw [advance_run_cons h, pure_bind]
          dsimp only
          rw [StateT.run_bind, behindSlash_run hrest, pure_bind]
          dsimp only
          by_cases hescaped : (if c = '\\' then rest.head? else none) = some '\''
          · -- a backslash and a quote
            rw [if_pos hescaped]
            obtain ⟨rfl, hquote⟩ := Option.ite_none_right_eq_some.mp hescaped
            obtain ⟨behind, rfl⟩ := List.head?_eq_some_iff.mp hquote
            have hbehind : behind <:+ text.toList := (List.suffix_cons _ behind).trans hrest
            rw [StateT.run_bind, advance_run_cons hrest, pure_bind,
              ih _ hbehind (Nat.lt_of_succ_lt hlength), readQuoted]
            cases readQuoted behind with
            | none => rfl
            | some outcome => simp
          · rw [if_neg hescaped]
            by_cases hquote : c = '\''
            · subst hquote
              rw [if_pos rfl]
              simp [readQuoted]
            · have hkept := readQuoted_cons hquote fun hslash => by simpa [hslash] using hescaped
              rw [if_neg hquote, ih _ hrest hlength, hkept]
              cases readQuoted rest with
              | none => rfl
              | some outcome => simp

theorem readRun_append (inCall : Bool) (braces : Nat) (s : List Char) :
    (readRun inCall braces s).1 ++ (readRun inCall braces s).2 = s := by
  induction s generalizing braces with
  | nil => rfl
  | cons c rest ih =>
      rw [readRun]
      split
      · rfl
      · exact congrArg (c :: ·) (ih _)

theorem passBare_run (depth : Nat) {bound : Nat} (braces : Nat) (h : s <:+ text.toList)
    (hbound : s.length < bound) :
    (passBare text depth bound braces : Cursor m _).run (place text.toList s) =
      pure ((), place text.toList (readRun (0 < depth) braces s).2) := by
  induction bound generalizing s braces with
  | zero => exact absurd hbound (Nat.not_lt_zero _)
  | succ bound ih =>
      rw [passBare, StateT.run_bind, peek_run h, pure_bind]
      cases s with
      | nil => rfl
      | cons c rest =>
          have hrest : rest <:+ text.toList := (List.suffix_cons c rest).trans h
          dsimp only [List.head?_cons]
          have hend : (decide (0 < depth) && braces == 0 && (c == ',' || c == ')')) = true ↔
              0 < depth ∧ braces = 0 ∧ (c = ',' ∨ c = ')') := by simp [and_assoc]
          rw [readRun]
          by_cases hstop : 0 < depth ∧ braces = 0 ∧ (c = ',' ∨ c = ')')
          · rw [if_pos hstop, if_pos (hend.mpr hstop)]
            rfl
          · rw [if_neg hstop, if_neg (mt hend.mp hstop), StateT.run_bind, advance_run_cons h,
              pure_bind]
            exact ih _ hrest (Nat.lt_of_succ_lt_succ hbound)

theorem bare_run (depth : Nat) (h : s <:+ text.toList) :
    (bare text depth : Cursor m _).run (place text.toList s) =
      pure ((readRun (0 < depth) 0 s).1, place text.toList (readRun (0 < depth) 0 s).2) := by
  have hpassed := @passed_run m _ _ text (readRun (0 < depth) 0 s).2 (readRun (0 < depth) 0 s).1
  rw [readRun_append] at hpassed
  rw [bare, StateT.run_bind, StateT.run_get, pure_bind, StateT.run_bind,
    passBare_run depth 0 h (length_lt_rounds h), pure_bind]
  exact hpassed h

theorem reference_run (h : s <:+ text.toList) :
    (reference text : Cursor m _).run (place text.toList s) =
      atPlace text (readReference text s) := by
  have hrest : s.dropWhile isIdentifierChar <:+ text.toList :=
    (List.dropWhile_suffix _).trans h
  rw [reference, StateT.run_bind, takeWhile_run _ h, pure_bind, readReference]
  dsimp only
  split
  · rfl
  · exact unexpectedHere_run hrest

end Steps

end Cursor

end PanelSkin.Expr
