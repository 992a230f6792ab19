import PanelSkin.Proofs.Expr.Saturated

/-!
Evaluation of `and` and `or`, with everything that it asks its surroundings for. Arguments are
tried from left to right, up to the first that decides or fails; what stands behind that is not
touched. As `or` goes on after just those values after which `and` stops, the two are dual: a
negated `and` and the `or` of the negated arguments come to the same and ask for the same.
-/

namespace PanelSkin

/-- What an evaluation asks its surroundings for. -/
inductive Request where
  | token (t : Token)
  | variable (id : String)
  | translation (text : String)
  | fontMetric (font : String) (metric : FontMetric)
  | textExtent (font text : String) (extent : Extent)
  | picture (path : String)
  | feature (name : String)
  deriving DecidableEq, Repr

/-- Computations that write down what they ask for, the latest request last. -/
abbrev Recorded (m : Type → Type) := StateT (List Request) m

variable {m : Type → Type} [Monad m]

def Request.answeredBy {α : Type} (r : Request) (x : m α) : Recorded m α := do
  modify (· ++ [r])
  liftM x

/-- The same lookups, with the requests of evaluations written down. -/
def Lookups.recording (lookups : Lookups m) : Lookups (Recorded m) where
  tokenId := lookups.tokenId
  variableText id := liftM (lookups.variableText id)
  token t := (Request.token t).answeredBy (lookups.token t)
  variableValue id := (Request.variable id).answeredBy (lookups.variableValue id)
  translate text := (Request.translation text).answeredBy (lookups.translate text)
  fontMetric id metric := (Request.fontMetric id metric).answeredBy (lookups.fontMetric id metric)
  textExtent id text extent :=
    (Request.textExtent id text extent).answeredBy (lookups.textExtent id text extent)
  pictureSize path := (Request.picture path).answeredBy (lookups.pictureSize path)
  feature name := (Request.feature name).answeredBy (lookups.feature name)
  clock := lookups.clock

namespace Expr

/-- Tries arguments as long as the operator goes on. The answer is `passed` if it goes on after all,
and the opposite if one of them stops it. -/
def tryArgs (lookups : Lookups m) (op : Operator) (passed : Bool) :
    List Expr → ExceptT EvalError m Bool
  | [] => pure passed
  | arg :: rest => do
    if op.goesOn (← evaluate lookups arg) then tryArgs lookups op passed rest
    else return !passed

theorem allTrue_eq (lookups : Lookups m) (args : List Expr) :
    allTrue lookups args = tryArgs lookups .and true args := by
  induction args with
  | nil => rfl
  | cons arg rest ih => rw [allTrue, tryArgs, ih]; rfl

theorem anyTrue_eq (lookups : Lookups m) (args : List Expr) :
    anyTrue lookups args = tryArgs lookups .or false args := by
  induction args with
  | nil => rfl
  | cons arg rest ih =>
      rw [anyTrue, tryArgs, ih]
      congr 1
      funext v
      cases hv : v.asBool <;> simp [Operator.goesOn, hv]

variable [LawfulMonad m]

def negated (e : Expr) : Expr := .call .not [e]

theorem tryArgs_negated (lookups : Lookups m) (args : List Expr) :
    tryArgs lookups .or false (args.map negated) = do
      return !(← tryArgs lookups .and true args) := by
  induction args with
  | nil => simp [tryArgs]
  | cons arg rest ih =>
      have hboolean (b : Bool) : (Value.boolean b).asBool = b := rfl
      rw [List.map_cons, tryArgs, tryArgs, negated, evaluate, evaluateAt, ih]
      simp only [bind_assoc, pure_bind]
      congr 1
      funext v
      cases hv : v.asBool <;> simp [Operator.goesOn, hboolean, hv]

theorem negated_and_eq_or (lookups : Lookups m) (args : List Expr) :
    (negated (.call .and args)).evaluate lookups =
      (Expr.call .or (args.map negated)).evaluate lookups := by
  rw [negated, evaluate, evaluateAt, evaluate, evaluate, allTrue_eq, anyTrue_eq, tryArgs_negated]
  simp [Value.asBool]

end Expr

section Adding

variable [LawfulMonad m]

/-- Computations that only add to what is written down, whatever that is. -/
def adding (m : Type → Type) [Monad m] [LawfulMonad m] :
    Correspondence (Recorded m) (Recorded m) where
  rel x y := x = y ∧ ∀ before, x.run before = Prod.map id (before ++ ·) <$> x.run []
  rel_pure a := ⟨rfl, fun before => by simp⟩
  rel_bind {α β x y f g} hxy hfg := by
    obtain ⟨rfl, hx⟩ := hxy
    obtain rfl : f = g := funext fun a => (hfg a).1
    refine ⟨rfl, fun before => ?_⟩
    rw [StateT.run_bind, StateT.run_bind, hx before, bind_map_left, map_bind]
    congr 1
    funext outcome
    change (f outcome.1).run (before ++ outcome.2) = _
    rw [(hfg outcome.1).2 (before ++ outcome.2), (hfg outcome.1).2 outcome.2]
    simp only [Functor.map_map, Prod.map, id, List.append_assoc]
    rfl

theorem adding_answeredBy {α : Type} (r : Request) (x : m α) :
    (adding m).rel (r.answeredBy x) (r.answeredBy x) := by
  refine ⟨rfl, fun before => ?_⟩
  simp [Request.answeredBy]

theorem Lookups.recording_adding (lookups : Lookups m) :
    (adding m).Lookups lookups.recording lookups.recording where
  tokenId := rfl
  variableText id := ⟨rfl, fun before => by simp [Lookups.recording]⟩
  token t := adding_answeredBy _ _
  variableValue id := adding_answeredBy _ _
  translate text := adding_answeredBy _ _
  fontMetric id metric := adding_answeredBy _ _
  textExtent id text extent := adding_answeredBy _ _
  pictureSize path := adding_answeredBy _ _
  feature name := adding_answeredBy _ _
  clock := rfl

/-- Computations that come to the same, on the left with their requests written down. -/
def forgetting (m : Type → Type) [Monad m] [LawfulMonad m] : Correspondence (Recorded m) m where
  rel x y := ∀ before, Prod.fst <$> x.run before = y
  rel_pure a before := by simp
  rel_bind {α β x y f g} hxy hfg before := by
    have hrest (outcome : α × List Request) :
        Prod.fst <$> (f outcome.1).run outcome.2 = g outcome.1 := hfg outcome.1 outcome.2
    rw [StateT.run_bind, map_bind, ← hxy before, bind_map_left]
    simp only [hrest]

theorem forgetting_answeredBy {α : Type} (r : Request) (x : m α) :
    (forgetting m).rel (r.answeredBy x) x := by
  intro before
  simp [Request.answeredBy]

theorem Lookups.recording_forgetting (lookups : Lookups m) :
    (forgetting m).Lookups lookups.recording lookups where
  tokenId := rfl
  variableText id before := by simp [Lookups.recording]
  token t := forgetting_answeredBy _ _
  variableValue id := forgetting_answeredBy _ _
  translate text := forgetting_answeredBy _ _
  fontMetric id metric := forgetting_answeredBy _ _
  textExtent id text extent := forgetting_answeredBy _ _
  pictureSize path := forgetting_answeredBy _ _
  feature name := forgetting_answeredBy _ _
  clock := rfl

/-- Going on or not, an operator only adds to the requests before if going on does. -/
theorem ite_adding {b : Bool} {x : ExceptT EvalError (Recorded m) Bool}
    (h : ((adding m).except EvalError).rel x x) (answer : Bool) :
    ((adding m).except EvalError).rel (if b then x else return answer)
      (if b then x else return answer) := by
  split
  · exact h
  · exact Correspondence.except_pure _

/-- So do the evaluations of arguments. -/
theorem tryArgs_adding (lookups : Lookups m) (op : Operator) (passed : Bool) (args : List Expr) :
    ((adding m).except EvalError).rel (Expr.tryArgs lookups.recording op passed args)
      (Expr.tryArgs lookups.recording op passed args) := by
  induction args with
  | nil => exact Correspondence.except_pure _
  | cons arg rest ih =>
      apply ((adding m).except EvalError).rel_bind (lookups.recording_adding.evaluate arg)
      exact fun v => ite_adding ih _

end Adding

/-- How trying arguments ends: the operator went on after all of them, one has stopped it, or one
has failed. -/
inductive Ending where
  | passed
  | stopped
  | failed (cause : EvalError)

/-- The outcome of an operator that answers `b` if it went on after all arguments. -/
def Ending.outcome (b : Bool) : Ending → Except EvalError Bool
  | .passed => .ok b
  | .stopped => .ok !b
  | .failed cause => .error cause

namespace Execution

variable {σ α : Type}

/-- From a state, a computation ends with an outcome in another, and has made requests. -/
def Ends (E : Execution m σ) (x : ExceptT EvalError (Recorded m) α) (s : σ)
    (outcome : Except EvalError α) (trace : List Request) (s' : σ) : Prop :=
  E.run (x.run.run []) s = some ((outcome, trace), s')

/-- Evaluates arguments of an operator from left to right, each once, as long as it goes on. -/
inductive Tries (E : Execution m σ) (lookups : Lookups m) (op : Operator) :
    σ → List Expr → Ending → List Request → σ → Prop where
  | none (s : σ) : Tries E lookups op s [] .passed [] s
  | stops {s s' : σ} {arg : Expr} {rest : List Expr} {v : Value} {trace : List Request}
      (harg : E.Ends (arg.evaluate lookups.recording) s (.ok v) trace s')
      (hstops : op.goesOn v = false) : Tries E lookups op s (arg :: rest) .stopped trace s'
  | fails {s s' : σ} {arg : Expr} {rest : List Expr} {cause : EvalError} {trace : List Request}
      (harg : E.Ends (arg.evaluate lookups.recording) s (.error cause) trace s') :
      Tries E lookups op s (arg :: rest) (.failed cause) trace s'
  | next {s s' s'' : σ} {arg : Expr} {rest : List Expr} {v : Value} {ending : Ending}
      {trace later : List Request}
      (harg : E.Ends (arg.evaluate lookups.recording) s (.ok v) trace s')
      (hgoes : op.goesOn v = true) (hrest : Tries E lookups op s' rest ending later s'') :
      Tries E lookups op s (arg :: rest) ending (trace ++ later) s''

variable {E : Execution m σ} {lookups : Lookups m} {op : Operator} {s s' : σ}
  {trace : List Request}

theorem ends_pure {a : α} {outcome : Except EvalError α} :
    E.Ends (pure a) s outcome trace s' ↔ outcome = .ok a ∧ trace = [] ∧ s' = s := by
  have hrun : E.run ((pure a : ExceptT EvalError (Recorded m) α).run.run []) s =
      some ((.ok a, []), s) := E.run_pure _ _
  rw [Ends, hrun]
  simp [eq_comm, and_assoc]

variable [LawfulMonad m]

/-- What a computation comes to that goes on behind another one and only adds to its requests. -/
theorem ends_bind {x : ExceptT EvalError (Recorded m) α} {β : Type}
    {f : α → ExceptT EvalError (Recorded m) β}
    (hf : ∀ a, ((adding m).except EvalError).rel (f a) (f a)) {outcome : Except EvalError β} :
    E.Ends (x >>= f) s outcome trace s' ↔
      (∃ cause, E.Ends x s (.error cause) trace s' ∧ outcome = .error cause) ∨
      ∃ a before later between, E.Ends x s (.ok a) before between ∧
        E.Ends (f a) between outcome later s' ∧ trace = before ++ later := by
  have hrun : E.run ((x >>= f).run.run []) s = (E.run (x.run.run []) s).bind fun (first, between) =>
      E.run ((ExceptT.bindCont f first.1).run first.2) between := E.run_bind _ _ _
  unfold Ends
  rw [hrun]
  cases E.run (x.run.run []) s with
  | none => simp
  | some ended =>
      obtain ⟨⟨first, before⟩, between⟩ := ended
      rw [Option.bind_some]
      dsimp only
      cases first with
      | error cause =>
          have hstop : E.run ((ExceptT.bindCont f (.error cause)).run before) between =
              some ((.error cause, before), between) := E.run_pure _ _
          rw [hstop]
          simp [eq_comm, and_comm, and_assoc]
      | ok a =>
          have hlater : E.run ((ExceptT.bindCont f (.ok a)).run before) between =
              (E.run ((f a).run.run []) between).map (Prod.map (Prod.map id (before ++ ·)) id) := by
            change E.run ((f a).run.run before) between = _
            rw [(hf a).2 before, map_eq_pure_bind, E.run_bind_pure]
          rw [hlater]
          rw [Option.map_eq_some_iff]
          constructor
          · rintro ⟨⟨⟨_, later⟩, _⟩, hrest, heq⟩
            cases heq
            exact .inr ⟨a, before, later, between, rfl, hrest, rfl⟩
          · rintro (⟨cause, hfirst, -⟩ | ⟨_, _, later, _, hfirst, hrest, rfl⟩)
            · cases hfirst
            · cases hfirst
              exact ⟨_, hrest, rfl⟩

theorem ends_tryArgs_iff {passed : Bool} {args : List Expr} {outcome : Except EvalError Bool} :
    E.Ends (Expr.tryArgs lookups.recording op passed args) s outcome trace s' ↔
      ∃ ending, E.Tries lookups op s args ending trace s' ∧ outcome = ending.outcome passed := by
  induction args generalizing s outcome trace with
  | nil =>
      rw [Expr.tryArgs, ends_pure]
      constructor
      · rintro ⟨rfl, rfl, rfl⟩
        exact ⟨.passed, .none _, rfl⟩
      · rintro ⟨ending, htries, rfl⟩
        cases htries
        exact ⟨rfl, rfl, rfl⟩
  | cons arg rest ih =>
      rw [Expr.tryArgs, ends_bind fun v => ite_adding (tryArgs_adding lookups op passed rest) _]
      constructor
      · rintro (⟨cause, harg, rfl⟩ | ⟨v, before, later, between, harg, hrest, rfl⟩)
        · exact ⟨.failed cause, .fails harg, rfl⟩
        · cases hgoes : op.goesOn v with
          | true =>
              rw [hgoes, if_pos rfl, ih] at hrest
              obtain ⟨ending, htries, rfl⟩ := hrest
              exact ⟨ending, .next harg hgoes htries, rfl⟩
          | false =>
              rw [hgoes, if_neg Bool.false_ne_true, ends_pure] at hrest
              obtain ⟨rfl, rfl, rfl⟩ := hrest
              exact ⟨.stopped, by simpa using .stops harg hgoes, rfl⟩
      · rintro ⟨ending, htries, rfl⟩
        cases htries with
        | stops harg hstops =>
            refine .inr ⟨_, _, [], _, harg, ?_, (List.append_nil _).symm⟩
            rw [hstops, if_neg Bool.false_ne_true, ends_pure]
            exact ⟨rfl, rfl, rfl⟩
        | fails harg => exact .inl ⟨_, harg, rfl⟩
        | next harg hgoes hrest =>
            refine .inr ⟨_, _, _, _, harg, ?_, rfl⟩
            rw [hgoes, if_pos rfl, ih]
            exact ⟨ending, hrest, rfl⟩

/-- What an operator answers that tries its arguments. -/
theorem ends_answer_iff {passed : Bool} {args : List Expr} {outcome : Except EvalError Value} :
    E.Ends (do return .boolean (← Expr.tryArgs lookups.recording op passed args)) s outcome trace
      s' ↔
      ∃ ending, E.Tries lookups op s args ending trace s' ∧
        outcome = (ending.outcome passed).map Value.boolean := by
  rw [ends_bind fun _ => Correspondence.except_pure _]
  simp only [ends_tryArgs_iff, ends_pure]
  constructor
  · rintro (⟨cause, ⟨ending, htries, hcause⟩, rfl⟩ |
      ⟨b, before, _, _, ⟨ending, htries, hb⟩, ⟨rfl, rfl, rfl⟩, rfl⟩)
    · exact ⟨ending, htries, by rw [← hcause]; rfl⟩
    · exact ⟨ending, by rwa [List.append_nil], by rw [← hb]; rfl⟩
  · rintro ⟨ending, htries, rfl⟩
    cases hfirst : ending.outcome passed with
    | error cause => exact .inl ⟨cause, ⟨ending, htries, hfirst.symm⟩, rfl⟩
    | ok b =>
        exact .inr ⟨b, trace, [], s', ⟨ending, htries, hfirst.symm⟩, ⟨rfl, rfl, rfl⟩,
          (List.append_nil _).symm⟩

end Execution

namespace Expr

/-- A negated `and` and the `or` of the negated arguments are one computation in any surroundings:
they have the same result or error, the same effects, and the same requests. Each of `and` and `or`
tries its arguments from left to right, each once, up to the first that decides or fails; its
requests are those of the arguments tried. Writing requests down changes nothing else. -/
theorem short_circuit_duality [LawfulMonad m] (lookups : Lookups m) (args : List Expr) :
    (negated (.call .and args)).evaluate lookups =
      (Expr.call .or (args.map negated)).evaluate lookups ∧
    ∀ {σ : Type} (E : Execution m σ) (s : σ) (outcome : Except EvalError Value)
      (trace : List Request) (s' : σ),
      (E.Ends ((negated (.call .and args)).evaluate lookups.recording) s outcome trace s' ↔
        E.Ends ((Expr.call .or (args.map negated)).evaluate lookups.recording) s outcome trace
          s') ∧
      (E.Ends ((Expr.call .and args).evaluate lookups.recording) s outcome trace s' ↔
        ∃ ending, E.Tries lookups .and s args ending trace s' ∧
          outcome = (ending.outcome true).map Value.boolean) ∧
      (E.Ends ((Expr.call .or args).evaluate lookups.recording) s outcome trace s' ↔
        ∃ ending, E.Tries lookups .or s args ending trace s' ∧
          outcome = (ending.outcome false).map Value.boolean) ∧
      ∀ e : Expr, Prod.fst <$> (e.evaluate lookups.recording).run.run [] =
        (e.evaluate lookups).run := by
  refine ⟨negated_and_eq_or lookups args, fun E s outcome trace s' => ⟨?_, ?_, ?_, ?_⟩⟩
  · rw [negated_and_eq_or]
  · rw [evaluate, allTrue_eq]
    exact Execution.ends_answer_iff
  · rw [evaluate, anyTrue_eq]
    exact Execution.ends_answer_iff
  · exact fun e => lookups.recording_forgetting.evaluate e []

/-- The second of three arguments decides, and the token of the third is not asked for. -/
theorem short_circuit_duality_of_second :
    let volume : Token := { name := "volume", id := 1 }
    let args : List Expr :=
      [.call .trans [.text ⟨[.literal "on"]⟩], .reference "playing", .text ⟨[.token volume]⟩]
    let trace : List Request := [.translation "on", .variable "playing"]
    Execution.immediate.Tries emptyWorld .and () args .stopped trace () ∧
      Execution.immediate.Ends ((Expr.call .or (args.map negated)).evaluate emptyWorld.recording)
        () (.ok (.boolean true)) trace () := by
  intro volume args trace
  obtain ⟨-, hends⟩ := short_circuit_duality emptyWorld args
  obtain ⟨-, hand, -⟩ := hends Execution.immediate () (.ok (.boolean false)) trace ()
  obtain ⟨hdual, -⟩ := hends Execution.immediate () (.ok (.boolean true)) trace ()
  obtain ⟨ending, htries, houtcome⟩ := hand.mp rfl
  refine ⟨?_, hdual.mp rfl⟩
  cases ending with
  | stopped => exact htries
  | passed => cases houtcome
  | failed cause => cases houtcome

end Expr

end PanelSkin
