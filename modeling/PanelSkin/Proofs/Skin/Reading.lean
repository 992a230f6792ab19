import Mathlib.Tactic
import PanelSkin.Skin.Document

/-!
Reading an element apart from the widgets it joins. Attributes are read with an eye on what was
declared before and on nothing else: the displays, the open widgets and the text collected so far
do not change what is read, and are left as they are. Whatever is wrong with an element is a
reason of its own, never one of an included file.
-/

namespace PanelSkin

/-- A reason that an element gives by itself; an include element has others. -/
def LoadError.IsPlain : LoadError → Prop
  | .inInclude .. | .includeDepth .. => False
  | _ => True

/-- The part of a draft in which widgets are put together. -/
structure Workpiece where
  displays : List Display
  display : Option Display
  opened : List Widget
  text : String

namespace Draft

def workpiece (d : Draft) : Workpiece := ⟨d.displays, d.display, d.opened, d.text⟩

/-- The draft with other widgets in the making. -/
def holding (d : Draft) (w : Workpiece) : Draft :=
  { d with displays := w.displays, display := w.display, opened := w.opened, text := w.text }

@[simp] theorem holding_workpiece (d : Draft) : d.holding d.workpiece = d := rfl

@[simp] theorem workpiece_holding (d : Draft) (w : Workpiece) : (d.holding w).workpiece = w := rfl

@[simp] theorem holding_holding (d : Draft) (w v : Workpiece) :
    (d.holding w).holding v = d.holding v := rfl

@[simp] theorem header_holding (d : Draft) (w : Workpiece) : (d.holding w).header = d.header := rfl

end Draft

namespace Reading

variable {α β : Type} {r : Reading α}

theorem bind_run (r : Reading α) (f : α → Reading β) (d : Draft) :
    (r >>= f).run d = (r.run d).bind fun (a, d') => (f a).run d' := by
  cases h : r.run d with
  | error cause =>
      change Except.bind (r.run d) _ = _
      rw [h]
      rfl
  | ok outcome =>
      change Except.bind (r.run d) _ = _
      rw [h]
      rfl

theorem get_bind_run (f : Draft → Reading β) (d : Draft) : (get >>= f).run d = (f d).run d := rfl

/-- Splits a sequence of two actions that succeeds. -/
theorem bind_run_eq_ok {f : α → Reading β} {d d' : Draft} {b : β} :
    (r >>= f).run d = .ok (b, d') ↔
      ∃ a between, r.run d = .ok (a, between) ∧ (f a).run between = .ok (b, d') := by
  rw [bind_run]
  cases r.run d with
  | error cause => simp [Except.bind]
  | ok outcome =>
      obtain ⟨a, between⟩ := outcome
      simp [Except.bind]

/-- Splits a sequence of two actions that fails. -/
theorem bind_run_eq_error {f : α → Reading β} {d : Draft} {cause : LoadError} :
    (r >>= f).run d = .error cause ↔ r.run d = .error cause ∨
      ∃ a between, r.run d = .ok (a, between) ∧ (f a).run between = .error cause := by
  rw [bind_run]
  cases r.run d with
  | error other => simp [Except.bind]
  | ok outcome =>
      obtain ⟨a, between⟩ := outcome
      simp [Except.bind]

/-- Reading that neither looks at the widgets in the making nor changes them, that leaves a header
in place, and that fails for plain reasons only. -/
structure Apart (r : Reading α) : Prop where
  run_holding : ∀ d w, r.run (d.holding w) = (r.run d).map fun (a, d') => (a, d'.holding w)
  header : ∀ d a d', r.run d = .ok (a, d') → d.header.isSome = true → d'.header.isSome = true
  isPlain : ∀ d cause, r.run d = .error cause → cause.IsPlain

theorem Apart.keeps (h : r.Apart) {d d' : Draft} {a : α} (hrun : r.run d = .ok (a, d')) :
    d'.workpiece = d.workpiece := by
  have hframe := h.run_holding d d.workpiece
  rw [Draft.holding_workpiece, hrun] at hframe
  have hsame : d' = d'.holding d.workpiece := by simpa [Except.map] using hframe
  rw [hsame, Draft.workpiece_holding]

/-- A successful reading does the same around other widgets in the making. -/
theorem Apart.run_holding_of_ok (h : r.Apart) {d d' : Draft} {a : α} (w : Workpiece)
    (hrun : r.run d = .ok (a, d')) : r.run (d.holding w) = .ok (a, d'.holding w) := by
  rw [h.run_holding, hrun]
  rfl

theorem Apart.pure (a : α) : (pure a : Reading α).Apart where
  run_holding _ _ := rfl
  header _ _ _ h hheader := by
    cases h
    exact hheader
  isPlain _ _ h := by cases h

theorem Apart.throw {cause : LoadError} (hplain : cause.IsPlain) :
    (throw cause : Reading α).Apart where
  run_holding _ _ := rfl
  header _ _ _ h := by cases h
  isPlain _ _ h := by
    cases h
    exact hplain

theorem Apart.bind {f : α → Reading β} (hr : r.Apart) (hf : ∀ a, (f a).Apart) :
    (r >>= f).Apart where
  run_holding d w := by
    rw [bind_run, bind_run, hr.run_holding]
    cases r.run d with
    | error cause => rfl
    | ok outcome => exact (hf outcome.1).run_holding outcome.2 w
  header d b d' h hheader := by
    obtain ⟨a, between, hfirst, hsecond⟩ := bind_run_eq_ok.mp h
    exact (hf a).header between b d' hsecond (hr.header d a between hfirst hheader)
  isPlain d cause h := by
    rcases bind_run_eq_error.mp h with hfirst | ⟨a, between, -, hsecond⟩
    · exact hr.isPlain d cause hfirst
    · exact (hf a).isPlain between cause hsecond

theorem Apart.modify {f : Draft → Draft} (hf : ∀ d w, f (d.holding w) = (f d).holding w)
    (hheader : ∀ d, d.header.isSome = true → (f d).header.isSome = true) :
    (modify f : Reading Unit).Apart where
  run_holding d w := congrArg (fun d' => Except.ok ((), d')) (hf d w)
  header d _ _ h := by
    cases h
    exact hheader d
  isPlain _ _ h := by cases h

theorem Apart.ite {c : Prop} [Decidable c] {s : Reading α} (hr : r.Apart) (hs : s.Apart) :
    (if c then r else s).Apart := by
  split
  · exact hr
  · exact hs

/-- Whatever reading gives satisfies `P`. -/
structure Ensures (r : Reading α) (P : α → Prop) : Prop where
  of_run : ∀ d a d', r.run d = .ok (a, d') → P a

theorem Ensures.pure {P : α → Prop} {a : α} (h : P a) : (pure a : Reading α).Ensures P where
  of_run _ _ _ hrun := by
    cases hrun
    exact h

theorem Ensures.throw {P : α → Prop} (cause : LoadError) :
    (throw cause : Reading α).Ensures P where
  of_run _ _ _ hrun := by cases hrun

theorem Ensures.bind {P : α → Prop} {Q : β → Prop} {f : α → Reading β} (hr : r.Ensures P)
    (hf : ∀ a, P a → (f a).Ensures Q) : (r >>= f).Ensures Q where
  of_run d b d' hrun := by
    obtain ⟨a, between, hfirst, hsecond⟩ := bind_run_eq_ok.mp hrun
    exact (hf a (hr.of_run d a between hfirst)).of_run between b d' hsecond

theorem Ensures.anyway (r : Reading α) : r.Ensures fun _ => True where
  of_run _ _ _ _ := trivial

end Reading

open Reading (Apart Ensures)

namespace Widget

/-- Nothing has been put into a widget yet. -/
def IsBare : Widget → Prop
  | .leaf .. => True
  | .block _ children => children = []
  | .list _ children rows => children = [] ∧ rows = none

end Widget

namespace WidgetTag

/-- The kind of the widgets that a tag stands for. Running texts are texts. -/
def kindName : WidgetTag → String
  | .pixel => "pixel"
  | .line => "line"
  | .rectangle => "rectangle"
  | .ellipse => "ellipse"
  | .slope => "slope"
  | .image => "image"
  | .progress => "progress"
  | .scrollbar => "scrollbar"
  | .text | .scrolltext => "text"
  | .button => "button"
  | .block => "block"
  | .list => "list"
  | .item => "item"

theorem kindName_of_ofName? {name : String} {tag : WidgetTag} (h : ofName? name = some tag) :
    tag.kindName = if name = "scrolltext" then "text" else name := by
  obtain ⟨before, after, htable, -⟩ := List.lookup_eq_some_iff.mp h
  have hmem : (name, tag) ∈ before ++ (name, tag) :: after := List.mem_append_cons_self
  rw [← htable] at hmem
  simp only [List.mem_cons, Prod.mk.injEq, List.not_mem_nil, or_false] at hmem
  rcases hmem with ⟨rfl, rfl⟩ | ⟨rfl, rfl⟩ | ⟨rfl, rfl⟩ | ⟨rfl, rfl⟩ | ⟨rfl, rfl⟩ | ⟨rfl, rfl⟩ |
    ⟨rfl, rfl⟩ | ⟨rfl, rfl⟩ | ⟨rfl, rfl⟩ | ⟨rfl, rfl⟩ | ⟨rfl, rfl⟩ | ⟨rfl, rfl⟩ | ⟨rfl, rfl⟩ |
    ⟨rfl, rfl⟩
  all_goals rfl

end WidgetTag

namespace Loading

variable {α : Type} (l : Loading)

theorem evaluate_apart (action : Lookups Evaluation → Evaluation (Except ExprError α)) :
    (l.evaluate action).Apart where
  run_holding d w := by
    have hcontext : l.context (d.holding w) = l.context d := rfl
    have hcells : (d.holding w).cells = d.cells := rfl
    have hshelf : (d.holding w).shelf = d.shelf := rfl
    unfold evaluate StateT.run
    simp only [hcontext, hcells, hshelf]
    split <;> rfl
  header d a d' h hheader := by
    unfold evaluate StateT.run at h
    simp only at h
    split at h <;> cases h
    exact hheader
  isPlain d cause h := by
    unfold evaluate StateT.run at h
    simp only at h
    split at h <;> cases h
    all_goals trivial

theorem readExpr_apart (text : String) : (l.readExpr text).Apart := l.evaluate_apart _

theorem readTemplate_apart (text : String) : (l.readTemplate text).Apart := l.evaluate_apart _

end Loading

/-- Reading put together from expressions, templates and declarations. -/
inductive Reading.Made (l : Loading) : {α : Type} → Reading α → Prop where
  | pure {α : Type} (a : α) : Made l (pure a : Reading α)
  | throw {α : Type} {cause : LoadError} (hplain : cause.IsPlain) :
      Made l (throw cause : Reading α)
  | bind {α β : Type} {r : Reading α} {f : α → Reading β} (hr : Made l r)
      (hf : ∀ a, Made l (f a)) : Made l (r >>= f)
  | readExpr (text : String) : Made l (l.readExpr text)
  | readTemplate (text : String) : Made l (l.readTemplate text)
  | declareVariable (v : VariableDecl) : Made l (modify (·.declareVariable v))
  | declareFont (f : FontDecl) : Made l (modify (·.declareFont f))
  | header (header : Header) : Made l (modify ({ · with header := some header }))

namespace Reading.Made

variable {α β : Type} {l : Loading} {r : Reading α}

theorem map (f : α → β) (hr : r.Made l) : (f <$> r).Made l := by
  rw [map_eq_pure_bind]
  exact hr.bind fun a => .pure (f a)

theorem apart (h : r.Made l) : r.Apart := by
  induction h with
  | pure a => exact .pure a
  | throw hplain => exact .throw hplain
  | bind _ _ ihr ihf => exact ihr.bind ihf
  | readExpr text => exact l.readExpr_apart text
  | readTemplate text => exact l.readTemplate_apart text
  | declareVariable v => exact .modify (fun _ _ => rfl) fun _ h => h
  | declareFont f => exact .modify (fun _ _ => rfl) fun _ h => h
  | header header => exact .modify (fun _ _ => rfl) fun _ _ => rfl

end Reading.Made

open Reading (Made)

namespace Element

variable {α : Type} (l : Loading) (e : Element)

theorem required_made (name : String) : (e.required name).Made l := by
  unfold required
  split
  · exact .pure _
  · exact .throw trivial

theorem read?_made (name : String) (read : String → Option α) : (e.read? name read).Made l := by
  unfold read?
  split
  · exact .pure _
  · split
    · exact .pure _
    · exact .throw trivial

theorem keyword?_made (name : String) (parse : String → Except InvalidValue α) :
    (e.keyword? name parse).Made l := e.read?_made l name _

theorem flag_made (name : String) : (e.flag name).Made l :=
  (e.read?_made l name flagOf?).bind fun _ => .pure _

theorem number?_made (name : String) (read : List Char → Option α) :
    (e.number? name read).Made l := e.read?_made l name _

theorem paint?_made (name : String) : (e.paint? name).Made l := e.read?_made l name _

theorem expr?_made (name : String) : (e.expr? l name).Made l := by
  unfold expr?
  split
  · exact .pure _
  · exact (Made.readExpr _).map some

theorem exprOrZero_made (name : String) : (e.exprOrZero l name).Made l :=
  (e.expr?_made l name).bind fun _ => .pure _

theorem requiredExpr_made (name : String) : (e.requiredExpr l name).Made l :=
  (e.required_made l name).bind fun value => .readExpr value

theorem eitherExpr?_made (name other : String) : (e.eitherExpr? l name other).Made l :=
  (e.expr?_made l name).bind fun _ => (e.expr?_made l other).bind fun _ => .pure _

theorem span_made (edge length : String) (default : Span) :
    (e.span l edge length default).Made l := by
  apply (e.expr?_made l edge).bind
  intro far
  cases far with
  | some far => exact .pure _
  | none =>
      apply (e.expr?_made l length).bind
      intro pixels
      cases pixels with
      | some pixels => exact .pure _
      | none => exact .pure _

theorem geometry_made : (e.geometry l).Made l := by
  apply (e.eitherExpr?_made l "x1" "x").bind
  intro x1
  apply (e.eitherExpr?_made l "y1" "y").bind
  intro y1
  apply (e.span_made l "x2" "width" _).bind
  intro x2
  exact (e.span_made l "y2" "height" _).bind fun _ => .pure _

theorem style_made : (e.style l).Made l := by
  apply (e.geometry_made l).bind
  intro geometry
  apply (e.expr?_made l "condition").bind
  intro condition
  apply (e.paint?_made l "color").bind
  intro color
  exact (e.paint?_made l "bgcolor").bind fun _ => .pure _

theorem pictureBox_made : (e.pictureBox l).Made l := by
  apply (e.required_made l "path").bind
  intro text
  apply (Made.readTemplate text).bind
  intro path
  apply (e.keyword?_made l "loop" _).bind
  intro loop
  exact (e.keyword?_made l "scale" _).bind fun _ => .pure _

theorem bar_made (hasPeak : Bool) : (e.bar l hasPeak).Made l := by
  apply (e.requiredExpr_made l "current").bind
  intro current
  apply (e.requiredExpr_made l "total").bind
  intro total
  apply (e.keyword?_made l "direction" _).bind
  intro direction
  cases hasPeak with
  | true => exact (e.expr?_made l "peak").bind fun _ => .pure _
  | false => exact .pure _

theorem textBox_made (scroll : LoopMode) : (e.textBox scroll).Made l := by
  apply (e.required_made l "font").bind
  intro font
  apply (e.keyword?_made l "align" _).bind
  intro align
  apply (e.keyword?_made l "valign" _).bind
  intro valign
  apply (e.flag_made l "multiline").bind
  intro multiline
  apply (e.keyword?_made l "scrollmode" _).bind
  intro mode
  apply (e.number?_made l "scrollspeed" _).bind
  intro speed
  exact (e.number?_made l "scrolltime" _).bind fun _ => .pure _

theorem kind_made (filled : Bool) (tag : WidgetTag) : (e.kind l filled tag).Made l := by
  cases tag with
  | pixel => exact .pure _
  | line => exact .pure _
  | rectangle => exact (e.exprOrZero_made l "radius").bind fun _ => .pure _
  | ellipse => exact (e.exprOrZero_made l "arc").bind fun _ => .pure _
  | slope =>
      apply (e.expr?_made l "arc").bind
      intro arc
      cases arc with
      | some arc => exact .pure _
      | none => exact (e.exprOrZero_made l "type").bind fun _ => .pure _
  | image => exact (e.pictureBox_made l).bind fun _ => .pure _
  | progress => exact (e.bar_made l true).bind fun _ => .pure _
  | scrollbar => exact (e.bar_made l false).bind fun _ => .pure _
  | text => exact (e.textBox_made l .never).bind fun _ => .pure _
  | scrolltext => exact (e.textBox_made l .always).bind fun _ => .pure _
  | button =>
      apply (e.required_made l "font").bind
      intro font
      exact (e.exprOrZero_made l "radius").bind fun _ => .pure _
  | block => exact .pure _
  | list => exact .pure _
  | item => exact (e.requiredExpr_made l "height").bind fun _ => .pure _

theorem widget_made : (e.widget l).Made l := by
  apply (e.flag_made l "filled").bind
  intro filled
  split
  · exact .throw trivial
  · apply (e.kind_made l filled _).bind
    intro build
    exact (e.style_made l).bind fun _ => .pure _

theorem widget_apart : (e.widget l).Apart := (e.widget_made l).apart

/-- A widget of a kind is of that kind in any style, and bare. -/
theorem kind_ensures (filled : Bool) (tag : WidgetTag) :
    (e.kind l filled tag).Ensures fun build =>
      ∀ style, (build style).name = tag.kindName ∧ (build style).IsBare := by
  have hleaf (kind : Leaf) (hname : kind.name = tag.kindName) (style : Style) :
      (Widget.leaf style kind).name = tag.kindName ∧ (Widget.leaf style kind).IsBare :=
    ⟨hname, trivial⟩
  cases tag with
  | pixel => exact .pure (hleaf .pixel rfl)
  | line => exact .pure (hleaf .line rfl)
  | rectangle => exact (Ensures.anyway _).bind fun radius _ => .pure (hleaf (.rectangle _ _) rfl)
  | ellipse => exact (Ensures.anyway _).bind fun arc _ => .pure (hleaf (.ellipse _ _) rfl)
  | slope =>
      apply (Ensures.anyway _).bind
      intro arc _
      cases arc with
      | some arc => exact .pure (hleaf (.slope arc) rfl)
      | none => exact (Ensures.anyway _).bind fun arc _ => .pure (hleaf (.slope arc) rfl)
  | image => exact (Ensures.anyway _).bind fun box _ => .pure (hleaf (.picture box) rfl)
  | progress => exact (Ensures.anyway _).bind fun bar _ => .pure (hleaf (.progress bar) rfl)
  | scrollbar => exact (Ensures.anyway _).bind fun bar _ => .pure (hleaf (.scrollbar bar) rfl)
  | text => exact (Ensures.anyway _).bind fun box _ => .pure (hleaf (.text box) rfl)
  | scrolltext => exact (Ensures.anyway _).bind fun box _ => .pure (hleaf (.text box) rfl)
  | button =>
      apply (Ensures.anyway _).bind
      intro font _
      exact (Ensures.anyway _).bind fun radius _ => .pure (hleaf (.button _) rfl)
  | block => exact .pure fun _ => ⟨rfl, rfl⟩
  | list => exact .pure fun _ => ⟨rfl, rfl, rfl⟩
  | item => exact (Ensures.anyway _).bind fun height _ => .pure (hleaf (.item height) rfl)

/-- The widget of an element is of the kind that the tag names, and bare. -/
theorem widget_ensures : (e.widget l).Ensures fun w =>
    w.name = (if e.tag = "scrolltext" then "text" else e.tag) ∧ w.IsBare := by
  apply (Ensures.anyway _).bind
  intro filled _
  split
  · exact .throw _
  · rename_i tag htag
    apply (e.kind_ensures l filled tag).bind
    intro build hbuild
    apply (Ensures.anyway _).bind
    intro style _
    rw [← WidgetTag.kindName_of_ofName? htag]
    exact .pure (hbuild style)

theorem declareVariable_made : (e.declareVariable l).Made l := by
  apply (e.required_made l "id").bind
  intro id
  apply (e.required_made l "value").bind
  intro text
  dsimp only
  split
  on_goal 2 => split
  -- the rest is the same after each way to a policy
  all_goals
    refine Made.bind (by first | exact .pure _ | exact .throw trivial) fun policy => ?_
    apply (Made.readExpr text).bind
    intro value
    apply (e.expr?_made l "condition").bind
    intro condition
    apply (Made.declareVariable _).bind
    intro _
    apply (e.expr?_made l "default").bind
    intro fallback
    cases fallback with
    | none => exact .pure _
    | some fallback => exact .declareVariable _

theorem declareFont_made : (e.declareFont l).Made l := by
  apply (e.required_made l "id").bind
  intro id
  apply (e.required_made l "url").bind
  intro url
  split
  · exact .throw trivial
  · apply (e.expr?_made l "condition").bind
    intro condition
    exact .declareFont _

theorem readHeader_made : (e.readHeader l).Made l := by
  apply (e.required_made l "version").bind
  intro version
  split
  · apply (e.expr?_made l "enable").bind
    intro enable
    exact .header _
  · exact .throw trivial

end Element

end PanelSkin
