import PanelSkin.Expr.Basic

/-!
Reading expressions. An expression is a quoted text, a bare template in braces, a number, `#id`
or a call `name(arg, ...)`; blanks are skipped around each. Reading goes once from left to
right; operators are checked for their arity as soon as they are closed, and nothing is looked
up but token names and the variable of a text that is exactly `#id`.

The depth of reading is bounded by the length of the text, see `Expr.parse`.
-/

namespace PanelSkin.Expr

/-- Number of bytes of a text in UTF-8. -/
def utf8Length (s : List Char) : Nat := s.foldr (Char.utf8Size · + ·) 0

/-- The error for the character at the start of `rest`, a tail of `whole`, or for the end. -/
def unexpectedAt (whole : String) (rest : List Char) : ExprError :=
  match rest with
  | [] => .unexpectedEnd whole
  | c :: _ => .unexpectedChar c (utf8Length whole.toList - utf8Length rest) whole

/-- A quoted text up to its closing quote, and what follows it. A backslash before a quote makes
the quote part of the text; before anything else it stands for itself. -/
def readQuoted : List Char → Option (List Char × List Char)
  | [] => none
  | '\\' :: '\'' :: rest => (readQuoted rest).map fun (quoted, after) => ('\'' :: quoted, after)
  | '\'' :: rest => some ([], rest)
  | c :: rest => (readQuoted rest).map fun (quoted, after) => (c :: quoted, after)

/-- A bare template: up to a comma or closing parenthesis outside braces if it stands in a call,
or to the end. -/
def readRun (inCall : Bool) (braces : Nat) : List Char → List Char × List Char
  | [] => ([], [])
  | c :: rest =>
    if inCall && braces == 0 && (c == ',' || c == ')') then ([], c :: rest)
    else
      let braces := if c = '{' then braces + 1 else if c = '}' then braces - 1 else braces
      let (run, after) := readRun inCall braces rest
      (c :: run, after)

/-- A number: an optional sign and digits, which have to fit 64 bits. -/
def readNumber (s : List Char) : Except ExprError (Expr × List Char) :=
  let (sign, digits) := match s with
    | '-' :: rest => (['-'], rest)
    | '+' :: rest => (['+'], rest)
    | _ => ([], s)
  let literal := sign ++ digits.takeWhile Char.isDigit
  match Text.readInt64 literal with
  | some n => .ok (.number (Int64.ofInt n), digits.dropWhile Char.isDigit)
  | none => .error (.invalidNumber (String.ofList literal))

/-- A variable's id after the number sign. -/
def readReference (whole : String) (s : List Char) : Except ExprError (Expr × List Char) :=
  let id := s.takeWhile isIdentifierChar
  let rest := s.dropWhile isIdentifierChar
  if isIdentifier id then .ok (.reference (String.ofList id), rest)
  else .error (unexpectedAt whole rest)

/-- A call of an operator with a number of arguments it takes. -/
def checkedCall (op : Operator) (args : List Expr) : Except ExprError Expr :=
  if op.arity.accepts args.length then .ok (.call op args)
  else .error (.arity op args.length)

variable {m : Type → Type} [Monad m]

/-- A step of reading: an error of the text, or nothing when the bound on the depth is
reached. -/
abbrev Reading (m : Type → Type) := ExceptT ExprError (OptionT m)

def readTemplate (lookups : Lookups m) (text : List Char) : Reading m Expr := do
  let template ← ExceptT.mk (OptionT.lift (Template.parse lookups (String.ofList text)))
  return .text template

mutual

/-- One expression and what follows it; `inCall` tells whether it is an argument. -/
def readExpr (lookups : Lookups m) (whole : String) :
    Nat → Bool → List Char → Reading m (Expr × List Char)
  | 0, _, _ => ExceptT.mk OptionT.fail
  | bound + 1, inCall, s =>
    match Text.trimStart s with
    | [] => throw (.unexpectedEnd whole)
    | c :: rest =>
      if c = '\'' then
        match readQuoted rest with
        | none => throw (.unterminatedString whole)
        | some (quoted, after) => do return (← readTemplate lookups quoted, after)
      else if c = '{' then do
        let (run, after) := readRun inCall 0 (c :: rest)
        return (← readTemplate lookups (Text.trimEnd run), after)
      else if c = '#' then readReference whole rest
      else if c = '-' ∨ c = '+' ∨ c.isDigit then readNumber (c :: rest)
      else if isIdentifierStart c then
        let name := (c :: rest).takeWhile isIdentifierChar
        match Text.trimStart ((c :: rest).dropWhile isIdentifierChar) with
        | '(' :: inner =>
          match Operator.ofName? (String.ofList name) with
          | none => throw (.unknownFunction (String.ofList name))
          | some op => do
            let (args, after) ←
              match Text.trimStart inner with
              | ')' :: after => pure ([], after)
              | args => readArgs lookups whole bound args
            return (← checkedCall op args, after)
        | after => throw (unexpectedAt whole after)
      else throw (unexpectedAt whole (c :: rest))

/-- The arguments of a call, one at least, up to the closing parenthesis. -/
def readArgs (lookups : Lookups m) (whole : String) :
    Nat → List Char → Reading m (List Expr × List Char)
  | 0, _ => ExceptT.mk OptionT.fail
  | bound + 1, s => do
    let (arg, after) ← readExpr lookups whole bound true s
    match Text.trimStart after with
    | ',' :: rest =>
      let (args, after) ← readArgs lookups whole bound rest
      return (arg :: args, after)
    | ')' :: rest => return ([arg], rest)
    | rest => throw (unexpectedAt whole rest)

end

/-- Reads a text that is one expression. Each level of reading takes a character at least, so
that the length of the text bounds their number. -/
def parse (lookups : Lookups m) (text : String) : m (Except ExprError Expr) := do
  let s := Text.trimStart text.toList
  if s.isEmpty then return .error .empty
  match ← readExpr lookups text (s.length + 1) false s with
  | none => return .error (.unexpectedEnd text)
  | some (.error e) => return .error e
  | some (.ok (expr, after)) =>
    match Text.trimStart after with
    | [] => return .ok expr
    | rest => return .error (unexpectedAt text rest)

end PanelSkin.Expr
