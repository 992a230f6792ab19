import PanelSkin.Proofs.Expr.Names

/-!
Evaluating one expression in two settings. Templates and expressions reach everything outside of
them through their lookups and leave the monad to the surroundings. So a relation between
computations that returning a value and going on with it keep, and in which the lookups of the
two settings stand, holds between the evaluations as well. It is enough that those lookups stand
in it which the expression can make.
-/

namespace PanelSkin

/-- Lookups whose answers are fixed, in any monad. -/
def Lookups.fixed {m : Type → Type} [Monad m] (world : Lookups Id) : Lookups m where
  tokenId := world.tokenId
  variableText id := pure (world.variableText id)
  token t := pure (world.token t)
  variableValue id := pure (world.variableValue id)
  translate text := pure (world.translate text)
  fontMetric id metric := pure (world.fontMetric id metric)
  textExtent id text extent := pure (world.textExtent id text extent)
  pictureSize path := pure (world.pictureSize path)
  feature name := pure (world.feature name)
  clock := world.clock

/-- Nothing is there. -/
def emptyWorld : Lookups Id where
  tokenId _ := none
  variableText _ := pure none
  token _ := pure (.text "")
  variableValue _ := pure none
  translate text := pure text
  fontMetric _ _ := pure none
  textExtent _ _ _ := pure none
  pictureSize _ := pure none
  feature _ := pure none
  clock := {}

/-- A relation between computations in two monads which is kept by returning the same value and
by going on with a value in the same way. -/
structure Correspondence (m n : Type → Type) [Monad m] [Monad n] [LawfulMonad m]
    [LawfulMonad n] where
  rel : {α : Type} → m α → n α → Prop
  rel_pure : ∀ {α : Type} (a : α), rel (pure a) (pure a)
  rel_bind : ∀ {α β : Type} {x : m α} {y : n α} {f : α → m β} {g : α → n β},
    rel x y → (∀ a, rel (f a) (g a)) → rel (x >>= f) (y >>= g)

namespace Correspondence

variable {m n : Type → Type} [Monad m] [Monad n] [LawfulMonad m] [LawfulMonad n]

/-- The same relation between computations that can fail; errors have to agree as values do. -/
def except (R : Correspondence m n) (ε : Type) :
    Correspondence (ExceptT ε m) (ExceptT ε n) where
  rel x y := R.rel x.run y.run
  rel_pure a := R.rel_pure (Except.ok a)
  rel_bind {α β x y f g} hxy hfg := by
    apply R.rel_bind hxy
    intro outcome
    cases outcome with
    | ok a => exact hfg a
    | error e => exact R.rel_pure (Except.error e : Except ε β)

/-- Two records of lookups that agree on what is known at once, and stand in the relation
otherwise. -/
structure Lookups (R : Correspondence m n) (l : PanelSkin.Lookups m)
    (k : PanelSkin.Lookups n) : Prop where
  tokenId : l.tokenId = k.tokenId
  variableText : ∀ id, R.rel (l.variableText id) (k.variableText id)
  token : ∀ t, R.rel (l.token t) (k.token t)
  variableValue : ∀ id, R.rel (l.variableValue id) (k.variableValue id)
  translate : ∀ text, R.rel (l.translate text) (k.translate text)
  fontMetric : ∀ id metric, R.rel (l.fontMetric id metric) (k.fontMetric id metric)
  textExtent : ∀ id text extent, R.rel (l.textExtent id text extent) (k.textExtent id text extent)
  pictureSize : ∀ path, R.rel (l.pictureSize path) (k.pictureSize path)
  feature : ∀ name, R.rel (l.feature name) (k.feature name)
  clock : l.clock = k.clock

variable {R : Correspondence m n} {l : PanelSkin.Lookups m} {k : PanelSkin.Lookups n}

theorem Lookups.fixed (world : PanelSkin.Lookups Id) :
    R.Lookups (PanelSkin.Lookups.fixed world) (PanelSkin.Lookups.fixed world) where
  tokenId := rfl
  variableText _ := R.rel_pure _
  token _ := R.rel_pure _
  variableValue _ := R.rel_pure _
  translate _ := R.rel_pure _
  fontMetric _ _ := R.rel_pure _
  textExtent _ _ _ := R.rel_pure _
  pictureSize _ := R.rel_pure _
  feature _ := R.rel_pure _
  clock := rfl

/-- The lookups of variables can be replaced on both sides. -/
theorem Lookups.variables (h : R.Lookups l k) {text : String → m (Option String)}
    {text' : String → n (Option String)} {value : String → m (Option Value)}
    {value' : String → n (Option Value)} (htext : ∀ id, R.rel (text id) (text' id))
    (hvalue : ∀ id, R.rel (value id) (value' id)) :
    R.Lookups { l with variableText := text, variableValue := value }
      { k with variableText := text', variableValue := value' } :=
  { h with variableText := htext, variableValue := hvalue }

/-- Two records of lookups that stand in the relation as far as certain names are looked up. -/
structure LookupsOn (R : Correspondence m n) (names : Name → Prop) (l : PanelSkin.Lookups m)
    (k : PanelSkin.Lookups n) : Prop where
  tokenId : l.tokenId = k.tokenId
  variableText : ∀ id, names (.variable id) → R.rel (l.variableText id) (k.variableText id)
  token : ∀ t, R.rel (l.token t) (k.token t)
  variableValue : ∀ id, names (.variable id) → R.rel (l.variableValue id) (k.variableValue id)
  translate : ∀ text, R.rel (l.translate text) (k.translate text)
  fontMetric : ∀ id metric, names (.font id) →
    R.rel (l.fontMetric id metric) (k.fontMetric id metric)
  textExtent : ∀ id text extent, names (.font id) →
    R.rel (l.textExtent id text extent) (k.textExtent id text extent)
  pictureSize : ∀ path, R.rel (l.pictureSize path) (k.pictureSize path)
  feature : ∀ name, R.rel (l.feature name) (k.feature name)
  clock : l.clock = k.clock

variable {names : Name → Prop}

theorem Lookups.on (h : R.Lookups l k) (names : Name → Prop) : R.LookupsOn names l k where
  tokenId := h.tokenId
  variableText id _ := h.variableText id
  token := h.token
  variableValue id _ := h.variableValue id
  translate := h.translate
  fontMetric id metric _ := h.fontMetric id metric
  textExtent id text extent _ := h.textExtent id text extent
  pictureSize := h.pictureSize
  feature := h.feature
  clock := h.clock

theorem LookupsOn.all (h : R.LookupsOn (fun _ => True) l k) : R.Lookups l k where
  tokenId := h.tokenId
  variableText id := h.variableText id trivial
  token := h.token
  variableValue id := h.variableValue id trivial
  translate := h.translate
  fontMetric id metric := h.fontMetric id metric trivial
  textExtent id text extent := h.textExtent id text extent trivial
  pictureSize := h.pictureSize
  feature := h.feature
  clock := h.clock

theorem LookupsOn.segmentValue (h : R.LookupsOn names l k) (segment : Segment)
    (hnames : ∀ id, segment = .reference id → names (.variable id)) :
    R.rel (segment.value l) (segment.value k) := by
  cases segment with
  | literal text => exact R.rel_pure _
  | token t => exact h.token t
  | reference id => exact R.rel_bind (h.variableValue id (hnames id rfl)) fun _ => R.rel_pure _

theorem LookupsOn.joined (h : R.LookupsOn names l k) (segments : List Segment)
    (hnames : ∀ id, .reference id ∈ segments → names (.variable id)) :
    R.rel (Segment.joined l segments) (Segment.joined k segments) := by
  induction segments with
  | nil => exact R.rel_pure _
  | cons segment rest ih =>
      apply R.rel_bind (h.segmentValue segment fun id hid => hnames id (by simp [hid]))
      intro value
      apply R.rel_bind (ih fun id hid => hnames id (List.mem_cons_of_mem _ hid))
      exact fun text => R.rel_pure _

theorem LookupsOn.template (h : R.LookupsOn names l k) (t : Template)
    (hnames : ∀ id, .reference id ∈ t.segments → names (.variable id)) :
    R.rel (t.evaluate l) (t.evaluate k) := by
  unfold Template.evaluate
  split
  · exact R.rel_pure _
  · rename_i segment hsegments
    exact h.segmentValue segment fun id hid => hnames id (by simp [hsegments, hid])
  · exact R.rel_bind (h.joined _ hnames) fun _ => R.rel_pure _

theorem Lookups.template (h : R.Lookups l k) (t : Template) :
    R.rel (t.evaluate l) (t.evaluate k) :=
  (h.on fun _ => True).template t fun _ _ => trivial

theorem LookupsOn.parseTemplate (h : R.LookupsOn names l k) (text : String)
    (hnames : ∀ id, names (.variable id)) :
    R.rel (Template.parse l text) (Template.parse k text) := by
  unfold Template.parse
  rw [h.tokenId]
  split
  · exact R.rel_pure _
  · apply R.rel_bind (h.variableText _ (hnames _))
    intro resolved
    cases resolved with
    | none => exact R.rel_pure _
    | some text => exact R.rel_pure _

theorem Lookups.parseTemplate (h : R.Lookups l k) (text : String) :
    R.rel (Template.parse l text) (Template.parse k text) :=
  (h.on fun _ => True).parseTemplate text fun _ => trivial

section Fallible

variable {ε α : Type}

theorem except_pure (a : α) : (R.except ε).rel (pure a) (pure a) := (R.except ε).rel_pure a

theorem except_throw (e : ε) :
    (R.except ε).rel (throw e : ExceptT ε m α) (throw e) :=
  R.rel_pure (Except.error e : Except ε α)

theorem except_throw_bind {β : Type} (e : ε) {f : α → ExceptT ε m β} {g : α → ExceptT ε n β} :
    (R.except ε).rel (throw e >>= f) (throw e >>= g) := by
  change R.rel (pure (Except.error e) >>= ExceptT.bindCont f)
    (pure (Except.error e) >>= ExceptT.bindCont g)
  rw [pure_bind, pure_bind]
  exact R.rel_pure (Except.error e : Except ε β)

theorem except_lift {x : m α} {y : n α} (h : R.rel x y) :
    (R.except ε).rel (liftM x) (liftM y) := by
  change R.rel (Except.ok <$> x) (Except.ok <$> y)
  rw [map_eq_pure_bind, map_eq_pure_bind]
  exact R.rel_bind h fun a => R.rel_pure (Except.ok a : Except ε α)

end Fallible

/-- What goes on with the value of an argument that is written out can rely on that value. -/
theorem except_bind_constant {α : Type} {arg : Expr} {f : Value → ExceptT EvalError m α}
    {g : Value → ExceptT EvalError n α}
    (harg : (R.except EvalError).rel (arg.evaluate l) (arg.evaluate k))
    (hfg : ∀ v, (∀ w, arg.constant? = some w → v = w) → (R.except EvalError).rel (f v) (g v)) :
    (R.except EvalError).rel (arg.evaluate l >>= f) (arg.evaluate k >>= g) := by
  cases hconstant : arg.constant? with
  | none =>
      apply (R.except _).rel_bind harg
      exact fun v => hfg v (by simp [hconstant])
  | some v =>
      rw [Expr.evaluate_of_constant hconstant, Expr.evaluate_of_constant hconstant, pure_bind,
        pure_bind]
      exact hfg v fun w hw => Option.some.inj (hconstant.symm.trans hw)

theorem forall_arg_names {op : Operator} {args : List Expr}
    (hnames : ∀ name, (Expr.call op args).Names name → names name) :
    ∀ arg ∈ args, ∀ name, arg.Names name → names name :=
  fun _ harg name hname => hnames name (.argument harg hname)

mutual

theorem LookupsOn.evaluate (h : R.LookupsOn names l k) :
    (e : Expr) → (∀ name, e.Names name → names name) →
      (R.except EvalError).rel (e.evaluate l) (e.evaluate k)
  | .text template, hnames =>
      except_lift (h.template template fun id hid => hnames _ (.segment hid))
  | .number n, _ => except_pure _
  | .reference id, hnames => by
      apply (R.except _).rel_bind (except_lift (h.variableValue id (hnames _ (.reference id))))
      exact fun value => except_pure _
  | .call .not args, hnames => by
      apply (R.except _).rel_bind (h.evaluateAt args (forall_arg_names hnames) 0)
      exact fun value => except_pure _
  | .call .and args, hnames => by
      apply (R.except _).rel_bind (h.allTrue args (forall_arg_names hnames))
      exact fun all => except_pure _
  | .call .or args, hnames => by
      apply (R.except _).rel_bind (h.anyTrue args (forall_arg_names hnames))
      exact fun any => except_pure _
  | .call (.compare relation) args, hnames => by
      apply (R.except _).rel_bind (h.evaluateAt args (forall_arg_names hnames) 0)
      intro a
      apply (R.except _).rel_bind (h.evaluateAt args (forall_arg_names hnames) 1)
      exact fun b => except_pure _
  | .call .file args, hnames => by
      apply (R.except _).rel_bind (h.evaluateAt args (forall_arg_names hnames) 0)
      intro path
      apply (R.except _).rel_bind (except_lift (h.pictureSize path.asText))
      intro size
      cases size with
      | none => exact except_pure _
      | some size => exact except_pure _
  | .call .trans args, hnames => by
      apply (R.except _).rel_bind (h.evaluateAt args (forall_arg_names hnames) 0)
      intro text
      apply (R.except _).rel_bind (except_lift (h.translate text.asText))
      exact fun translated => except_pure _
  | .call .add args, hnames => by
      apply (R.except _).rel_bind (h.foldNumbers (· + ·) args (forall_arg_names hnames) 0)
      exact fun sum => except_pure _
  | .call .mul args, hnames => by
      apply (R.except _).rel_bind (h.foldNumbers (· * ·) args (forall_arg_names hnames) 1)
      exact fun product => except_pure _
  | .call .sub [], _ => except_throw _
  | .call .sub (first :: rest), hnames => by
      have hargs := forall_arg_names hnames
      apply (R.except _).rel_bind (h.evaluate first (hargs first List.mem_cons_self))
      intro minuend
      have hrest := (List.forall_mem_cons.mp hargs).2
      apply (R.except _).rel_bind (h.foldNumbers (· - ·) rest hrest minuend.asNumber)
      exact fun difference => except_pure _
  | .call .div args, hnames => by
      apply (R.except _).rel_bind (h.evaluateAt args (forall_arg_names hnames) 0)
      intro dividend
      apply (R.except _).rel_bind (h.evaluateAt args (forall_arg_names hnames) 1)
      intro divisor
      split
      · exact except_throw _
      · exact except_pure _
  | .call (.fontMetric metric) [], _ => except_throw_bind _
  | .call (.fontMetric metric) (arg :: rest), hnames => by
      have harg := h.evaluate arg (forall_arg_names hnames arg List.mem_cons_self)
      apply except_bind_constant harg
      intro font hfont
      have hname := hnames (.font font.asText) (.fontMetric fun v hv => by rw [hfont v hv])
      apply (R.except _).rel_bind (except_lift (h.fontMetric font.asText metric hname))
      exact fun measure => except_pure _
  | .call (.textExtent extent) [], _ => except_throw_bind _
  | .call (.textExtent extent) (arg :: rest), hnames => by
      have hargs := forall_arg_names hnames
      apply except_bind_constant (h.evaluate arg (hargs arg List.mem_cons_self))
      intro font hfont
      have hname := hnames (.font font.asText) (.textExtent fun v hv => by rw [hfont v hv])
      apply (R.except _).rel_bind (h.evaluateAt rest (List.forall_mem_cons.mp hargs).2 0)
      intro text
      apply (R.except _).rel_bind
        (except_lift (h.textExtent font.asText text.asText extent hname))
      exact fun measure => except_pure _
  | .call (.pictureSide extent) args, hnames => by
      apply (R.except _).rel_bind (h.evaluateAt args (forall_arg_names hnames) 0)
      intro path
      apply (R.except _).rel_bind (except_lift (h.pictureSize path.asText))
      exact fun size => except_pure _
  | .call .queryFeature args, hnames => by
      apply (R.except _).rel_bind (h.evaluateAt args (forall_arg_names hnames) 0)
      intro name
      apply (R.except _).rel_bind (except_lift (h.feature name.asText))
      exact fun level => except_pure _

theorem LookupsOn.evaluateAt (h : R.LookupsOn names l k) : (args : List Expr) →
    (∀ arg ∈ args, ∀ name, arg.Names name → names name) → (index : Nat) →
      (R.except EvalError).rel (Expr.evaluateAt l index args) (Expr.evaluateAt k index args)
  | [], _, _ => except_throw _
  | arg :: _, hnames, 0 => h.evaluate arg (hnames arg List.mem_cons_self)
  | _ :: rest, hnames, index + 1 =>
      h.evaluateAt rest (List.forall_mem_cons.mp hnames).2 index

theorem LookupsOn.allTrue (h : R.LookupsOn names l k) : (args : List Expr) →
    (∀ arg ∈ args, ∀ name, arg.Names name → names name) →
      (R.except EvalError).rel (Expr.allTrue l args) (Expr.allTrue k args)
  | [], _ => except_pure _
  | arg :: rest, hnames => by
      apply (R.except _).rel_bind (h.evaluate arg (hnames arg List.mem_cons_self))
      intro value
      split
      · exact h.allTrue rest (List.forall_mem_cons.mp hnames).2
      · exact except_pure _

theorem LookupsOn.anyTrue (h : R.LookupsOn names l k) : (args : List Expr) →
    (∀ arg ∈ args, ∀ name, arg.Names name → names name) →
      (R.except EvalError).rel (Expr.anyTrue l args) (Expr.anyTrue k args)
  | [], _ => except_pure _
  | arg :: rest, hnames => by
      apply (R.except _).rel_bind (h.evaluate arg (hnames arg List.mem_cons_self))
      intro value
      split
      · exact except_pure _
      · exact h.anyTrue rest (List.forall_mem_cons.mp hnames).2

theorem LookupsOn.foldNumbers (h : R.LookupsOn names l k) (combine : Int64 → Int64 → Int64) :
    (args : List Expr) → (∀ arg ∈ args, ∀ name, arg.Names name → names name) → (acc : Int64) →
      (R.except EvalError).rel (Expr.foldNumbers l combine acc args)
        (Expr.foldNumbers k combine acc args)
  | [], _, _ => except_pure _
  | arg :: rest, hnames, acc => by
      apply (R.except _).rel_bind (h.evaluate arg (hnames arg List.mem_cons_self))
      intro value
      exact h.foldNumbers combine rest (List.forall_mem_cons.mp hnames).2
        (combine acc value.asNumber)

end

theorem LookupsOn.evaluateOr (h : R.LookupsOn names l k) (default : Value) {e : Expr}
    (hnames : ∀ name, e.Names name → names name) :
    R.rel (e.evaluateOr l default) (e.evaluateOr k default) := by
  apply R.rel_bind (h.evaluate e hnames)
  intro outcome
  cases outcome with
  | ok value => exact R.rel_pure _
  | error cause => exact R.rel_pure _

theorem LookupsOn.evaluateBool (h : R.LookupsOn names l k) {e : Expr}
    (hnames : ∀ name, e.Names name → names name) :
    R.rel (e.evaluateBool l) (e.evaluateBool k) :=
  R.rel_bind (h.evaluateOr (.boolean false) hnames) fun _ => R.rel_pure _

theorem Lookups.evaluate (h : R.Lookups l k) (e : Expr) :
    (R.except EvalError).rel (e.evaluate l) (e.evaluate k) :=
  (h.on fun _ => True).evaluate e fun _ _ => trivial

theorem Lookups.evaluateOr (h : R.Lookups l k) (default : Value) (e : Expr) :
    R.rel (e.evaluateOr l default) (e.evaluateOr k default) :=
  (h.on fun _ => True).evaluateOr default fun _ _ => trivial

theorem Lookups.evaluateNumber (h : R.Lookups l k) (e : Expr) :
    R.rel (e.evaluateNumber l) (e.evaluateNumber k) :=
  R.rel_bind (h.evaluateOr (.number 0) e) fun _ => R.rel_pure _

theorem Lookups.evaluateBool (h : R.Lookups l k) (e : Expr) :
    R.rel (e.evaluateBool l) (e.evaluateBool k) :=
  (h.on fun _ => True).evaluateBool fun _ _ => trivial

end Correspondence

end PanelSkin
