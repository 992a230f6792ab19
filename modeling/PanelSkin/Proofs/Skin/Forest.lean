import PanelSkin.Proofs.Markup.Content
import PanelSkin.Proofs.Markup.Nesting
import PanelSkin.Proofs.Skin.Events

/-!
Skins as trees. A skin is read with a stack of open widgets, one event after the other; read
recursively instead, over the tree that a document stands for, it comes out the same. The
displays of a skin are the display elements of its document, and what is in them is the forest of
the elements in those.
-/

namespace PanelSkin

open Markup (Event Piece Content OpenTag Accepts Nested)

namespace Markup

theorem Nested.exists_content {events : List Event} (h : Nested events) :
    ∃ document : Content, events.map Event.piece = document.pieces := by
  induction h with
  | nil => exact ⟨.empty, rfl⟩
  | text content line _ ih =>
      obtain ⟨rest, hrest⟩ := ih
      exact ⟨.text content rest, by simp [Content.pieces, Event.piece, hrest]⟩
  | element tag attributes opened closed _ _ ihinner ihrest =>
      obtain ⟨inner, hinner⟩ := ihinner
      obtain ⟨rest, hrest⟩ := ihrest
      refine ⟨.element ⟨tag, attributes⟩ inner rest, ?_⟩
      simp [Content.pieces, Event.piece, hinner, hrest]

theorem events_of_text {events : List Event} {characters : String} {rest : Content}
    (h : events.map Event.piece = (Content.text characters rest).pieces) :
    ∃ line last, events = .text characters line :: last ∧ last.map Event.piece = rest.pieces := by
  obtain ⟨event, last, rfl, hevent, hlast⟩ := List.map_eq_cons_iff.mp h
  cases event with
  | text content line =>
      cases hevent
      exact ⟨line, last, rfl, hlast⟩
  | start tag attributes line => cases hevent
  | finish tag line => cases hevent

theorem events_of_element {events : List Event} {tag : OpenTag} {inner rest : Content}
    (h : events.map Event.piece = (Content.element tag inner rest).pieces) :
    ∃ opened closed first last,
      events = .start tag.name tag.attributes opened :: (first ++ .finish tag.name closed :: last) ∧
      first.map Event.piece = inner.pieces ∧ last.map Event.piece = rest.pieces := by
  obtain ⟨start, others, rfl, hstart, hothers⟩ := List.map_eq_cons_iff.mp h
  obtain ⟨first, behind, rfl, hfirst, hbehind⟩ := List.map_eq_append_iff.mp hothers
  obtain ⟨finish, last, rfl, hfinish, hlast⟩ := List.map_eq_cons_iff.mp hbehind
  cases start with
  | start name attributes opened =>
      cases finish with
      | finish other closed =>
          cases hstart
          cases hfinish
          exact ⟨opened, closed, first, last, rfl, hfirst, hlast⟩
      | start other others line => cases hfinish
      | text content line => cases hfinish
  | finish name line => cases hstart
  | text content line => cases hstart

namespace Content

/-- The text that stands directly in some content, that in its elements aside. -/
def characters : Content → String
  | .empty => ""
  | .text content rest => content ++ rest.characters
  | .element _ _ rest => rest.characters

/-- The display elements in some content, in the order in which they start. -/
def displays : Content → List (OpenTag × Content)
  | .empty => []
  | .text _ rest => rest.displays
  | .element tag inner rest =>
    (if tag.name = "display" then [(tag, inner)] else []) ++ inner.displays ++ rest.displays

end Content

end Markup

namespace Widget

def children : Widget → List Widget
  | .leaf .. => []
  | .block _ children | .list _ children _ => children

/-- The text that a widget shows, if it is one that shows its text. -/
def template? : Widget → Option Template
  | .leaf _ (.text box) => some box.text
  | .leaf _ (.button button) => some button.text
  | _ => none

/-- Puts widgets into one, one after the other. -/
def filledWith (w : Widget) (children : List Widget) : Except LoadError Widget :=
  children.foldlM (fun w child => Draft.adopt child w) w

end Widget

namespace Loading

/-- Puts the widgets in an element into its own. -/
def fill (w : Widget) (children : List Widget) : Reading Widget := fun d =>
  (w.filledWith children).map (·, d)

/-- Reads the widgets that the elements in some content stand for: the attributes of an element
first, then what is in it, and last the text that stands directly in it. -/
def forest (l : Loading) : Content → Reading (List Widget)
  | .empty => pure []
  | .text _ rest => l.forest rest
  | .element tag inner rest => do
    let bare ← Element.widget l ⟨tag.name, tag.attributes⟩
    let children ← l.forest inner
    let w ← l.completed inner.characters (← fill bare children)
    let others ← l.forest rest
    return w :: others

/-- Reads the displays in some content, and what is declared there on the way. -/
def displays (l : Loading) : Content → Reading (List Display)
  | .empty => pure []
  | .text _ rest => l.displays rest
  | .element tag inner rest => do
    let e : Element := ⟨tag.name, tag.attributes⟩
    if e.tag = "display" then
      let id ← e.required "id"
      let widgets ← l.forest inner
      let others ← l.displays rest
      return ⟨id, widgets⟩ :: others
    else if e.tag = "skin" ∨ e.tag = "variable" ∨ e.tag = "font" then
      l.declare e
      let first ← l.displays inner
      let others ← l.displays rest
      return first ++ others
    else throw (.unexpectedTag e.tag .outsideDisplay)

/-- Widgets show the elements in some content, one each and in their order: a widget is of the kind
that the tag names, its children show what is in the element, and its text is the one read from
the characters that stand directly there, blanks at the ends aside. -/
inductive Shows (l : Loading) : Content → List Widget → Prop where
  | empty : Shows l .empty []
  | text {characters : String} {rest : Content} {widgets : List Widget}
      (hrest : Shows l rest widgets) : Shows l (.text characters rest) widgets
  | element {tag : OpenTag} {inner rest : Content} {w : Widget} {widgets : List Widget}
      (hkind : w.name = if tag.name = "scrolltext" then "text" else tag.name)
      (hchildren : Shows l inner w.children)
      (htext : ∀ template ∈ w.template?, ∃ d d',
        (l.readTemplate (String.ofList (Text.trim inner.characters.toList))).run d =
          .ok (template, d'))
      (hrest : Shows l rest widgets) : Shows l (.element tag inner rest) (w :: widgets)

end Loading

namespace Widget

variable {w filled : Widget} {widgets : List Widget}

/-- Whether the characters in the element of a widget are its text. -/
def showsText : Widget → Bool
  | .leaf _ (.text _) | .leaf _ (.button _) => true
  | _ => false

/-- Only a container takes a child, and it takes it behind the others. -/
theorem adopted {child parent : Widget} (h : Draft.adopt child parent = .ok w) :
    w.name = parent.name ∧ w.children = parent.children ++ [child] ∧ parent.showsText = false ∧
      w.showsText = false := by
  cases parent with
  | leaf style kind => cases h
  | block style children =>
      unfold Draft.adopt at h
      split_ifs at h
      cases h
      exact ⟨rfl, rfl, rfl, rfl⟩
  | list style children rows =>
      have hplace : child.isItem = children.isEmpty := by
        by_contra hplace
        simp only [Draft.adopt, hplace, if_false] at h
        split_ifs at h
      simp only [Draft.adopt, hplace, if_true] at h
      cases h
      exact ⟨rfl, rfl, rfl, rfl⟩

theorem filledWith_cons {first : Widget} {rest : List Widget} :
    w.filledWith (first :: rest) = .ok filled ↔
      ∃ grown, Draft.adopt first w = .ok grown ∧ grown.filledWith rest = .ok filled := by
  unfold filledWith
  rw [List.foldlM_cons]
  cases Draft.adopt first w with
  | error cause => simp [bind, Except.bind]
  | ok grown => simp [bind, Except.bind]

theorem filledWith_append {more : List Widget} {grown : Widget}
    (hfirst : w.filledWith widgets = .ok grown) (hmore : grown.filledWith more = .ok filled) :
    w.filledWith (widgets ++ more) = .ok filled := by
  unfold filledWith at hfirst hmore ⊢
  rw [List.foldlM_append, hfirst]
  exact hmore

theorem filledWith_spec (h : w.filledWith widgets = .ok filled) :
    filled.name = w.name ∧ filled.children = w.children ++ widgets ∧
      filled.showsText = w.showsText ∧ (w.showsText = true → filled = w) := by
  induction widgets generalizing w with
  | nil =>
      cases h
      exact ⟨rfl, by simp, rfl, fun _ => rfl⟩
  | cons first rest ih =>
      obtain ⟨grown, hfirst, hrest⟩ := filledWith_cons.mp h
      obtain ⟨hname, hchildren, hbefore, hafter⟩ := adopted hfirst
      obtain ⟨hrestName, hrestChildren, hrestText, -⟩ := ih hrest
      refine ⟨hrestName.trans hname, ?_, hrestText.trans (hafter.trans hbefore.symm), ?_⟩
      · rw [hrestChildren, hchildren, List.append_assoc, List.singleton_append]
      · intro htext
        rw [hbefore] at htext
        cases htext

end Widget

/-- What reading some content makes of the widgets in the making: there are `widgets` more in the
innermost open widget, or else in the display, and `text` more if that widget shows its text. -/
inductive Workpiece.Grown (text : String) (widgets : List Widget) : Workpiece → Workpiece → Prop
  | display {displays : List Display} {display grown : Display} {before after : String}
      (hgrown : grown = { display with widgets := display.widgets ++ widgets }) :
      Grown text widgets ⟨displays, some display, [], before⟩ ⟨displays, some grown, [], after⟩
  | parent {displays : List Display} {display : Option Display} {parent filled : Widget}
      {outer : List Widget} {before after : String}
      (hfilled : parent.filledWith widgets = .ok filled)
      (htext : parent.showsText = true → after = before ++ text) :
      Grown text widgets ⟨displays, display, parent :: outer, before⟩
        ⟨displays, display, filled :: outer, after⟩

namespace Workpiece

variable {v : Workpiece}

theorem Grown.refl (h : v.display.isSome = true) : Grown "" [] v v := by
  obtain ⟨displays, display, opened, text⟩ := v
  cases opened with
  | nil =>
      obtain ⟨display, rfl⟩ := Option.isSome_iff_exists.mp h
      exact .display (by simp)
  | cons parent outer => exact .parent rfl fun _ => by simp

theorem Grown.of_parent {text : String} {widgets : List Widget} {displays : List Display}
    {display : Option Display} {parent : Widget} {outer : List Widget} {before : String}
    (h : Grown text widgets ⟨displays, display, parent :: outer, before⟩ v) :
    ∃ filled after, v = ⟨displays, display, filled :: outer, after⟩ ∧
      parent.filledWith widgets = .ok filled ∧
      (parent.showsText = true → after = before ++ text) := by
  cases h with
  | parent hfilled htext => exact ⟨_, _, rfl, hfilled, htext⟩

theorem Grown.of_display {text : String} {widgets : List Widget} {displays : List Display}
    {display : Display} {before : String}
    (h : Grown text widgets ⟨displays, some display, [], before⟩ v) :
    ∃ after, v = ⟨displays, some { display with widgets := display.widgets ++ widgets }, [],
      after⟩ := by
  cases h with
  | display hgrown => exact ⟨_, by rw [hgrown]⟩

theorem Grown.display_isSome {text : String} {widgets : List Widget} {v' : Workpiece}
    (h : Grown text widgets v v') (hv : v.display.isSome = true) : v'.display.isSome = true := by
  cases h with
  | display hgrown => rfl
  | parent hfilled htext => exact hv

theorem Grown.trans {text more : String} {widgets others : List Widget} {v' v'' : Workpiece}
    (hfirst : Grown text widgets v v') (hmore : Grown more others v' v'') :
    Grown (text ++ more) (widgets ++ others) v v'' := by
  cases hfirst with
  | display hgrown =>
      cases hmore with
      | display hmoreGrown =>
          refine .display ?_
          rw [hmoreGrown, hgrown, List.append_assoc]
  | parent hfilled htext =>
      cases hmore with
      | parent hothers hmoreText =>
          refine .parent (Widget.filledWith_append hfilled hothers) ?_
          intro hshows
          have hsame := (Widget.filledWith_spec hfilled).2.2.1
          rw [hmoreText (hsame.trans hshows), htext hshows, String.append_assoc]

end Workpiece

namespace Draft

variable {d d' : Draft}

theorem addText_grown (content : String) (h : d.display.isSome = true) :
    Workpiece.Grown content [] d.workpiece (d.addText content).workpiece := by
  obtain ⟨display, hdisplay⟩ := Option.isSome_iff_exists.mp h
  unfold addText workpiece
  split
  · rename_i hopened
    rw [hopened]
    exact .parent rfl fun _ => rfl
  · rename_i hopened
    rw [hopened]
    exact .parent rfl fun _ => rfl
  · rename_i htext hbutton
    rcases hopened : d.opened with _ | ⟨w, outer⟩
    · rw [hdisplay]
      exact .display (by simp)
    · refine .parent rfl fun hshows => ?_
      unfold Widget.showsText at hshows
      split at hshows
      · exact absurd hopened (htext _ _ _)
      · exact absurd hopened (hbutton _ _ _)
      · cases hshows

theorem addText_holding (content : String) :
    (d.addText content).holding d.workpiece = d := by
  unfold addText
  split <;> rfl

/-- A finished widget joins what is in the making; the text before it does not matter, for only
containers take widgets. -/
theorem attach_grown {w : Widget} {v : Workpiece} (hd : d.workpiece = { v with text := "" })
    (h : d.attach w = .ok d') : Workpiece.Grown "" [w] v d'.workpiece := by
  obtain ⟨displays, display, opened, text⟩ := v
  obtain ⟨rfl, rfl, rfl, htext⟩ := Workpiece.mk.inj hd
  unfold attach at h
  split at h
  · rename_i parent outer hopened
    cases hadopt : adopt w parent with
    | error cause =>
        rw [hadopt] at h
        cases h
    | ok grown =>
        rw [hadopt] at h
        cases h
        rw [hopened]
        refine .parent (Widget.filledWith_cons.mpr ⟨grown, hadopt, rfl⟩) fun hshows => ?_
        have hcontainer := (Widget.adopted hadopt).2.2.1
        rw [hcontainer] at hshows
        cases hshows
  · rename_i hopened
    split_ifs at h
    split at h
    · rename_i display hdisplay
      cases h
      rw [hopened, hdisplay]
      exact .display rfl
    · cases h

theorem attach_holding {w : Widget} (h : d.attach w = .ok d') (v : Workpiece) :
    d'.holding v = d.holding v := by
  unfold attach at h
  split at h
  · rename_i parent outer hopened
    cases hadopt : adopt w parent with
    | error cause =>
        rw [hadopt] at h
        cases h
    | ok grown =>
        rw [hadopt] at h
        cases h
        rfl
  · split_ifs at h
    split at h
    · cases h
      rfl
    · cases h

end Draft

namespace Loading

open Reading (Apart)

theorem fill_run_eq_ok {w filled : Widget} {children : List Widget} {d d' : Draft} :
    (fill w children).run d = .ok (filled, d') ↔ w.filledWith children = .ok filled ∧ d' = d := by
  change (w.filledWith children).map _ = _ ↔ _
  cases w.filledWith children with
  | error cause => simp [Except.map]
  | ok other => simp [Except.map, eq_comm]

theorem fill_apart (w : Widget) (children : List Widget) : (fill w children).Apart where
  run_holding d v := by
    change (w.filledWith children).map _ = ((w.filledWith children).map _).map _
    cases w.filledWith children <;> rfl
  header d filled d' h hheader := by
    obtain ⟨-, rfl⟩ := fill_run_eq_ok.mp h
    exact hheader
  isPlain d cause h := by
    induction children generalizing w with
    | nil => cases h
    | cons first rest ih =>
        have hrun : (w.filledWith (first :: rest)).map (fun filled => (filled, d)) =
            .error cause := h
        unfold Widget.filledWith at hrun
        rw [List.foldlM_cons] at hrun
        cases hadopt : Draft.adopt first w with
        | error other =>
            rw [hadopt] at hrun
            cases hrun
            exact Draft.adopt_isPlain hadopt
        | ok grown =>
            rw [hadopt] at hrun
            exact ih grown hrun

theorem forest_apart (l : Loading) (content : Content) : (l.forest content).Apart := by
  induction content with
  | empty => exact .pure _
  | text characters rest ih => exact ih
  | element tag inner rest ihinner ihrest =>
      apply (Element.widget_apart l _).bind
      intro bare
      apply ihinner.bind
      intro children
      apply (fill_apart bare children).bind
      intro filled
      apply (l.completed_apart _ filled).bind
      intro w
      exact ihrest.bind fun others => .pure _

theorem displays_apart (l : Loading) (content : Content) : (l.displays content).Apart := by
  induction content with
  | empty => exact .pure _
  | text characters rest ih => exact ih
  | element tag inner rest ihinner ihrest =>
      refine .ite ?_ (.ite ?_ (.throw trivial))
      · apply (Element.required_made l _ _).apart.bind
        intro id
        apply (l.forest_apart inner).bind
        intro widgets
        exact ihrest.bind fun others => .pure _
      · apply (l.declare_apart _).bind
        intro _
        apply ihinner.bind
        intro first
        exact ihrest.bind fun others => .pure _

/-- Takes an event of a file without include elements. -/
def takes (l : Loading) (included : Bool) : Markup.Receiver Draft LoadError := fun event d =>
  ((l.handle included event).run d).map (·.2)

variable {l : Loading} {included : Bool} {d d' : Draft}

theorem takes_eq_ok {event : Event} :
    l.takes included event d = .ok d' ↔ (l.handle included event).run d = .ok ((), d') := by
  unfold takes
  cases (l.handle included event).run d with
  | error cause => simp [Except.map]
  | ok outcome => simp [Except.map, Prod.ext_iff]

/-- Only a text shown by the widget matters to it when its element ends. -/
theorem completed_congr {w : Widget} {text other : String}
    (h : w.showsText = true → text = other) : l.completed text w = l.completed other w := by
  unfold completed
  split
  · rw [h rfl]
  · rw [h rfl]
  · rfl
  · rfl

/-- A header stays in place. -/
theorem handle_header {event : Event} (h : (l.handle included event).run d = .ok ((), d'))
    (hheader : d.header.isSome = true) : d'.header.isSome = true := by
  cases event with
  | text content line =>
      cases h
      rwa [← Draft.header_holding (d.addText content) d.workpiece, Draft.addText_holding]
  | start tag attributes line =>
      cases started_of_start h with
      | declared htag hrun => exact (l.declare_apart _).header _ _ _ hrun hheader
      | display id htag hid hsome hnone => exact hheader
      | widget hdisplay htag hrun =>
          have hread := (Element.widget_apart l _).header _ _ _ hrun hheader
          exact hread
  | finish tag line =>
      cases finished_of_finish h with
      | nothing htag => exact hheader
      | display htag =>
          unfold Draft.finishDisplay
          split <;> exact hheader
      | widget htag hopened hcompleted hattach =>
          have hread := (l.completed_apart _ _).header _ _ _ hcompleted hheader
          rw [← Draft.header_holding d' d.workpiece, Draft.attach_holding hattach]
          exact hread

theorem takes_header {events : List Event} (h : Accepts (l.takes included) d events d')
    (hheader : d.header.isSome = true) : d'.header.isSome = true :=
  h.invariant (P := fun d => d.header.isSome = true)
    (fun _ _ _ _ hbefore htaken => handle_header (takes_eq_ok.mp htaken) hbefore) hheader

/-- The end of an element, if its start opened the widget `w` and the widgets in it are `children`:
there is one widget more, and reading goes on behind it. -/
theorem forest_of_finish {tag : OpenTag} {inner : Content} {w : Widget} {opened d₁ d₂ : Draft}
    {children : List Widget} {closed : Nat}
    (hstart : (Element.widget l ⟨tag.name, tag.attributes⟩).run d = .ok (w, opened))
    (htag : tag.name ≠ "include" ∧ tag.name ≠ "skin" ∧ tag.name ≠ "variable" ∧
      tag.name ≠ "font" ∧ tag.name ≠ "display")
    (hinner : (l.forest inner).run (opened.push w) =
      .ok (children, d₁.holding (opened.push w).workpiece))
    (hgrown : Workpiece.Grown inner.characters children (opened.push w).workpiece d₁.workpiece)
    (hfinish : l.takes included (.finish tag.name closed) d₁ = .ok d₂) :
    ∃ finished, Workpiece.Grown "" [finished] d.workpiece d₂.workpiece ∧
      ∀ rest others (d' : Draft), (l.forest rest).run d₂ = .ok (others, d'.holding d₂.workpiece) →
        (l.forest (.element tag inner rest)).run d =
          .ok (finished :: others, d'.holding d.workpiece) := by
  have hkeeps := (Element.widget_apart l _).keeps hstart
  obtain ⟨filled, after, hworkpiece, hfilled, htext⟩ := hgrown.of_parent
  cases finished_of_finish (takes_eq_ok.mp hfinish) with
  | nothing hnothing =>
      have hopened : d₁.opened ≠ [] := by
        rw [show d₁.opened = filled :: opened.opened from congrArg Workpiece.opened hworkpiece]
        exact List.cons_ne_nil _ _
      tauto
  | display hdisplay => exact absurd hdisplay htag.2.2.2.2
  | @widget top finished outer between _ _ hopened hcompleted hattach =>
      obtain ⟨hdisplays, hdisplay, hstack, hafter⟩ := Workpiece.mk.inj hworkpiece
      obtain ⟨rfl, rfl⟩ := List.cons.inj (hopened.symm.trans hstack)
      have hbetween : between.workpiece = { d.workpiece with text := "" } := by
        rw [(l.completed_apart _ _).keeps hcompleted, ← hkeeps]
        exact congrArg₂ (fun displays display => Workpiece.mk displays display opened.opened "")
          hdisplays hdisplay
      have hsame : l.completed d₁.text top = l.completed inner.characters top := by
        refine completed_congr fun hshows => ?_
        rw [(Widget.filledWith_spec hfilled).2.2.1] at hshows
        rw [hafter, htext hshows]
        exact String.empty_append
      rw [hsame] at hcompleted
      have hinside : (l.forest inner).run opened = .ok (children, d₁.holding d.workpiece) := by
        have hframe := (l.forest_apart inner).run_holding_of_ok opened.workpiece hinner
        rw [← hkeeps]
        exact hframe
      have hclosed : (l.completed inner.characters top).run (d₁.holding d.workpiece) =
          .ok (finished, between.holding d.workpiece) := by
        have hframe := (l.completed_apart _ _).run_holding_of_ok d.workpiece hcompleted
        exact hframe
      refine ⟨finished, Draft.attach_grown hbetween hattach, ?_⟩
      intro rest others d' hrest
      have hbehind : (l.forest rest).run (between.holding d.workpiece) =
          .ok (others, d'.holding d.workpiece) := by
        have hframe := (l.forest_apart rest).run_holding_of_ok d.workpiece hrest
        rwa [Draft.attach_holding hattach] at hframe
      refine Reading.bind_run_eq_ok.mpr ⟨w, opened, hstart, ?_⟩
      refine Reading.bind_run_eq_ok.mpr ⟨children, _, hinside, ?_⟩
      refine Reading.bind_run_eq_ok.mpr ⟨top, _, fill_run_eq_ok.mpr ⟨hfilled, rfl⟩, ?_⟩
      refine Reading.bind_run_eq_ok.mpr ⟨finished, _, hclosed, ?_⟩
      exact Reading.bind_run_eq_ok.mpr ⟨others, _, hbehind, rfl⟩

/-- Reading the events of some content with a stack of open widgets leads to where reading the
content recursively leads to, and puts the same widgets in their place. -/
theorem forest_of_accepts {content : Content} {events : List Event}
    (hpieces : events.map Event.piece = content.pieces)
    (hplain : ∀ event ∈ events, event.include? = none) (hheader : d.header.isSome = true)
    (hdisplay : d.display.isSome = true) (h : Accepts (l.takes included) d events d') :
    ∃ widgets, (l.forest content).run d = .ok (widgets, d'.holding d.workpiece) ∧
      Workpiece.Grown content.characters widgets d.workpiece d'.workpiece := by
  induction content generalizing events d d' with
  | empty =>
      obtain rfl := List.map_eq_nil_iff.mp hpieces
      obtain rfl := Markup.accepts_nil.mp h
      exact ⟨[], rfl, .refl hdisplay⟩
  | text characters rest ih =>
      obtain ⟨line, last, rfl, hlast⟩ := Markup.events_of_text hpieces
      obtain ⟨next, hfirst, hrest⟩ := Markup.accepts_cons.mp h
      cases takes_eq_ok.mp hfirst
      have hgrown := Draft.addText_grown characters hdisplay
      have hsome := handle_header (takes_eq_ok.mp hfirst) hheader
      obtain ⟨-, htail⟩ := List.forall_mem_cons.mp hplain
      obtain ⟨widgets, hrun, hmore⟩ :=
        ih hlast htail hsome (hgrown.display_isSome hdisplay) hrest
      refine ⟨widgets, ?_, hgrown.trans hmore⟩
      have hframe := (l.forest_apart rest).run_holding_of_ok d.workpiece hrun
      rwa [Draft.addText_holding, Draft.holding_holding] at hframe
  | element tag inner rest ihinner ihrest =>
      obtain ⟨opened, closed, first, last, rfl, hfirst, hlast⟩ := Markup.events_of_element hpieces
      obtain ⟨d₁, hstart, hothers⟩ := Markup.accepts_cons.mp h
      obtain ⟨d₂, hinside, hbehind⟩ := Markup.accepts_append.mp hothers
      obtain ⟨d₃, hfinish, hrest⟩ := Markup.accepts_cons.mp hbehind
      have htaken := takes_eq_ok.mp hstart
      have hsome := handle_header htaken hheader
      simp only [List.forall_mem_cons, List.forall_mem_append] at hplain
      obtain ⟨hinclude, hplainFirst, -, hplainLast⟩ := hplain
      cases started_of_start htaken with
      | declared htag hrun =>
          rcases htag with ⟨-, hnone⟩ | ⟨-, hnone⟩
          · simp [hnone] at hheader
          · simp [hnone] at hdisplay
      | display id htag hid hsome hnone => simp [hnone] at hdisplay
      | @widget w read _ htag hrun =>
          have hkeeps := (Element.widget_apart l _).keeps hrun
          have hinner : (read.push w).display.isSome = true := by
            rw [show (read.push w).display = d.display from congrArg Workpiece.display hkeeps]
            exact hdisplay
          obtain ⟨children, hchildren, hgrown⟩ := ihinner hfirst hplainFirst hsome hinner hinside
          have hsomeAfter := handle_header (takes_eq_ok.mp hfinish) (takes_header hinside hsome)
          have htags : tag.name ≠ "include" := by simpa [Event.include?] using hinclude
          obtain ⟨finished, hjoined, hgoes⟩ :=
            forest_of_finish hrun ⟨htags, htag⟩ hchildren hgrown hfinish
          obtain ⟨others, hrunRest, hmore⟩ := ihrest hlast hplainLast hsomeAfter
            (hjoined.display_isSome hdisplay) hrest
          refine ⟨finished :: others, hgoes rest others d' hrunRest, ?_⟩
          have hall := hjoined.trans hmore
          rwa [String.empty_append] at hall

theorem finishDisplay_holding (d : Draft) (v : Workpiece) :
    d.finishDisplay.holding v = d.holding v := by
  unfold Draft.finishDisplay
  split <;> rfl

theorem displays_run_declared {tag : OpenTag} {inner rest : Content} {d₁ d₂ : Draft}
    {first others : List Display}
    (htag : tag.name = "skin" ∨ tag.name = "variable" ∨ tag.name = "font")
    (hdeclare : (l.declare ⟨tag.name, tag.attributes⟩).run d = .ok ((), d₁))
    (hinner : (l.displays inner).run d₁ = .ok (first, d₂.holding d₁.workpiece))
    (hrest : (l.displays rest).run d₂ = .ok (others, d'.holding d₂.workpiece)) :
    (l.displays (.element tag inner rest)).run d =
      .ok (first ++ others, d'.holding d.workpiece) := by
  have hnone : tag.name ≠ "display" := by
    intro hname
    simp [hname] at htag
  have hframe := (l.displays_apart rest).run_holding_of_ok d₁.workpiece hrest
  rw [← (l.declare_apart _).keeps hdeclare, displays, if_neg hnone, if_pos htag]
  refine Reading.bind_run_eq_ok.mpr ⟨(), d₁, hdeclare, ?_⟩
  refine Reading.bind_run_eq_ok.mpr ⟨first, _, hinner, ?_⟩
  exact Reading.bind_run_eq_ok.mpr ⟨others, _, hframe, rfl⟩

theorem displays_run_display {tag : OpenTag} {inner rest : Content} {d₂ : Draft} {id : String}
    {widgets : List Widget} {others : List Display} (htag : tag.name = "display")
    (hid : tag.attributes.get? "id" = some id) {v : Workpiece}
    (hinner : (l.forest inner).run { d with display := some { id } } =
      .ok (widgets, d₂.holding v))
    (hrest : (l.displays rest).run d₂.finishDisplay =
      .ok (others, d'.holding d₂.finishDisplay.workpiece)) :
    (l.displays (.element tag inner rest)).run d =
      .ok (⟨id, widgets⟩ :: others, d'.holding d.workpiece) := by
  have hrequired : (Element.required ⟨tag.name, tag.attributes⟩ "id").run d = .ok (id, d) := by
    rw [Element.required, hid]
    rfl
  have hinside := (l.forest_apart inner).run_holding_of_ok d.workpiece hinner
  have hframe := (l.displays_apart rest).run_holding_of_ok d.workpiece hrest
  rw [finishDisplay_holding] at hframe
  rw [displays, if_pos htag]
  refine Reading.bind_run_eq_ok.mpr ⟨id, d, hrequired, ?_⟩
  refine Reading.bind_run_eq_ok.mpr ⟨widgets, _, hinside, ?_⟩
  exact Reading.bind_run_eq_ok.mpr ⟨others, _, hframe, rfl⟩

/-- What is in a display element is read recursively, and the display is there when it ends. -/
theorem display_of_accepts {inner : Content} {events : List Event} {id : String}
    (hpieces : events.map Event.piece = inner.pieces)
    (hplain : ∀ event ∈ events, event.include? = none) (hheader : d.header.isSome = true)
    (hopened : d.opened = [])
    (h : Accepts (l.takes included) { d with display := some { id } } events d') :
    ∃ widgets, (l.forest inner).run { d with display := some { id } } =
        .ok (widgets, d'.holding ⟨d.displays, some { id }, d.opened, d.text⟩) ∧
      d'.finishDisplay.displays = d.displays ++ [⟨id, widgets⟩] ∧
      d'.finishDisplay.display = none ∧ d'.finishDisplay.opened = [] := by
  obtain ⟨widgets, hrun, hgrown⟩ :=
    forest_of_accepts (d := { d with display := some { id } }) hpieces hplain hheader rfl h
  have hbefore : Workpiece.Grown inner.characters widgets
      ⟨d.displays, some { id }, d.opened, d.text⟩ d'.workpiece := hgrown
  rw [hopened] at hbefore
  obtain ⟨after, hworkpiece⟩ := hbefore.of_display
  obtain ⟨hdisplays, hdisplay, hopened', -⟩ := Workpiece.mk.inj hworkpiece
  refine ⟨widgets, hrun, ?_⟩
  unfold Draft.finishDisplay
  rw [hdisplay]
  exact ⟨by rw [hdisplays]; rfl, rfl, hopened'⟩

/-- Reading the events of a whole document, or of what stands outside of its displays, leads to
where reading recursively leads to, and the same displays are there. -/
theorem displays_of_accepts {content : Content} {events : List Event}
    (hpieces : events.map Event.piece = content.pieces)
    (hplain : ∀ event ∈ events, event.include? = none) (hdisplay : d.display = none)
    (hopened : d.opened = []) (h : Accepts (l.takes included) d events d') :
    ∃ displays, (l.displays content).run d = .ok (displays, d'.holding d.workpiece) ∧
      d'.displays = d.displays ++ displays := by
  suffices hall : ∃ displays, (l.displays content).run d =
      .ok (displays, d'.holding d.workpiece) ∧ d'.displays = d.displays ++ displays ∧
      d'.display = none ∧ d'.opened = [] by
    obtain ⟨displays, hrun, hdisplays, -⟩ := hall
    exact ⟨displays, hrun, hdisplays⟩
  induction content generalizing events d d' with
  | empty =>
      obtain rfl := List.map_eq_nil_iff.mp hpieces
      obtain rfl := Markup.accepts_nil.mp h
      exact ⟨[], rfl, by simp, hdisplay, hopened⟩
  | text characters rest ih =>
      obtain ⟨line, last, rfl, hlast⟩ := Markup.events_of_text hpieces
      obtain ⟨next, hfirst, hrest⟩ := Markup.accepts_cons.mp h
      obtain rfl : next = d := by
        cases takes_eq_ok.mp hfirst
        simp [Draft.addText, hopened]
      exact ih hlast (List.forall_mem_cons.mp hplain).2 hdisplay hopened hrest
  | element tag inner rest ihinner ihrest =>
      obtain ⟨opened, closed, first, last, rfl, hfirst, hlast⟩ := Markup.events_of_element hpieces
      obtain ⟨d₁, hstart, hothers⟩ := Markup.accepts_cons.mp h
      obtain ⟨d₂, hinside, hbehind⟩ := Markup.accepts_append.mp hothers
      obtain ⟨d₃, hfinish, hrest⟩ := Markup.accepts_cons.mp hbehind
      simp only [List.forall_mem_cons, List.forall_mem_append] at hplain
      obtain ⟨-, hplainFirst, -, hplainLast⟩ := hplain
      have hfinished := finished_of_finish (takes_eq_ok.mp hfinish)
      cases started_of_start (takes_eq_ok.mp hstart) with
      | declared htag hrun =>
          have htag : tag.name = "skin" ∨ tag.name = "variable" ∨ tag.name = "font" := by
            rcases htag with ⟨htag, -⟩ | ⟨htag, -⟩
            · exact .inl htag
            · exact .inr htag
          have hkeeps := (l.declare_apart _).keeps hrun
          obtain ⟨hdisplays₁, hdisplay₁, hopened₁, -⟩ := Workpiece.mk.inj hkeeps
          obtain ⟨earlier, hrunFirst, hdisplays₂, hdisplay₂, hopened₂⟩ := ihinner hfirst
            hplainFirst (hdisplay₁.trans hdisplay) (hopened₁.trans hopened) hinside
          obtain rfl : d₃ = d₂ := by
            cases hfinished with
            | nothing _ => rfl
            | display hdisplay => simp [hdisplay] at htag
            | widget _ hwidget => simp [hopened₂] at hwidget
          obtain ⟨others, hrunRest, hdisplays₃, hend⟩ := ihrest hlast hplainLast hdisplay₂ hopened₂
            hrest
          refine ⟨earlier ++ others, displays_run_declared htag hrun hrunFirst hrunRest, ?_, hend⟩
          rw [hdisplays₃, hdisplays₂, hdisplays₁, List.append_assoc]
      | display id htag hid hheader hnone =>
          obtain ⟨widgets, hrunFirst, hdisplays₃, hdisplay₃, hopened₃⟩ :=
            display_of_accepts hfirst hplainFirst hheader hopened hinside
          obtain rfl : d₃ = d₂.finishDisplay := by
            cases hfinished with
            | nothing hnothing => simp_all
            | display _ => rfl
            | widget hother => exact absurd htag hother
          obtain ⟨others, hrunRest, hdisplays₄, hend⟩ := ihrest hlast hplainLast hdisplay₃ hopened₃
            hrest
          refine ⟨⟨id, widgets⟩ :: others,
            displays_run_display htag hid hrunFirst hrunRest, ?_, hend⟩
          rw [hdisplays₄, hdisplays₃, List.append_assoc, List.singleton_append]
      | widget hsome => simp [hdisplay] at hsome

/-- The end of an element gives its widget its text, and changes nothing else about it. -/
theorem completed_ensures_shown (l : Loading) (text : String) (w : Widget) :
    (l.completed text w).Ensures fun finished =>
      finished.name = w.name ∧ finished.children = w.children ∧
      ∀ template ∈ finished.template?, ∃ d d',
        (l.readTemplate (String.ofList (Text.trim text.toList))).run d = .ok (template, d') where
  of_run d finished d' hrun := by
    unfold completed at hrun
    split at hrun
    · obtain ⟨template, between, hread, hdone⟩ := Reading.bind_run_eq_ok.mp hrun
      cases hdone
      refine ⟨rfl, rfl, ?_⟩
      intro shown hshown
      cases hshown
      exact ⟨d, d', hread⟩
    · obtain ⟨template, between, hread, hdone⟩ := Reading.bind_run_eq_ok.mp hrun
      cases hdone
      refine ⟨rfl, rfl, ?_⟩
      intro shown hshown
      cases hshown
      exact ⟨d, d', hread⟩
    · cases hrun
    · rename_i htext hbutton _
      cases hrun
      refine ⟨rfl, rfl, ?_⟩
      intro shown hshown
      unfold Widget.template? at hshown
      split at hshown
      · exact absurd rfl (htext _ _)
      · exact absurd rfl (hbutton _ _)
      · cases hshown

theorem children_of_isBare {w : Widget} (h : w.IsBare) : w.children = [] := by
  cases w with
  | leaf style kind => rfl
  | block style children => exact h
  | list style children rows => exact h.1

theorem shows_of_forest {content : Content} {widgets : List Widget}
    (h : (l.forest content).run d = .ok (widgets, d')) : Shows l content widgets := by
  induction content generalizing widgets d d' with
  | empty =>
      cases h
      exact .empty
  | text characters rest ih => exact .text (ih h)
  | element tag inner rest ihinner ihrest =>
      obtain ⟨bare, d₁, hwidget, h⟩ := Reading.bind_run_eq_ok.mp h
      obtain ⟨children, d₂, hinner, h⟩ := Reading.bind_run_eq_ok.mp h
      obtain ⟨filled, d₃, hfill, h⟩ := Reading.bind_run_eq_ok.mp h
      obtain ⟨w, d₄, hcompleted, h⟩ := Reading.bind_run_eq_ok.mp h
      obtain ⟨others, d₅, hrest, h⟩ := Reading.bind_run_eq_ok.mp h
      cases h
      obtain ⟨hkind, hbare⟩ := (Element.widget_ensures l _).of_run _ _ _ hwidget
      obtain ⟨hfilled, -⟩ := fill_run_eq_ok.mp hfill
      obtain ⟨hname, hchildren, -, -⟩ := Widget.filledWith_spec hfilled
      obtain ⟨hsame, hkept, htext⟩ := (l.completed_ensures_shown _ _).of_run _ _ _ hcompleted
      rw [children_of_isBare hbare, List.nil_append] at hchildren
      refine .element ?_ ?_ htext (ihrest hrest)
      · rw [hsame, hname, hkind]
      · rw [hkept, hchildren]
        exact ihinner hinner

/-- No display stands where widgets are read, for no widget is a display. -/
theorem Shows.displays_eq_nil {content : Content} {widgets : List Widget}
    (h : Shows l content widgets) : content.displays = [] := by
  induction h with
  | empty => rfl
  | text _ ih => exact ih
  | @element tag inner rest w widgets hkind _ _ _ ihinner ihrest =>
      have hnone : tag.name ≠ "display" := by
        rintro hname
        simp only [hname] at hkind
        unfold Widget.name Leaf.name at hkind
        split at hkind
        · split at hkind <;> simp at hkind
        · simp at hkind
        · simp at hkind
      rw [Content.displays, if_neg hnone, ihinner, ihrest]
      rfl

/-- A display shows a display element: it has its id, and its widgets show what is in it. -/
def ShowsDisplay (l : Loading) (element : OpenTag × Content) (display : Display) : Prop :=
  element.1.attributes.get? "id" = some display.id ∧ l.Shows element.2 display.widgets

theorem showsDisplay_of_displays {content : Content} {displays : List Display}
    (h : (l.displays content).run d = .ok (displays, d')) :
    List.Forall₂ l.ShowsDisplay content.displays displays := by
  induction content generalizing displays d d' with
  | empty =>
      cases h
      exact .nil
  | text characters rest ih => exact ih h
  | element tag inner rest ihinner ihrest =>
      unfold Loading.displays at h
      dsimp only at h
      rw [Content.displays]
      split_ifs at h with hdisplay hdeclares
      · obtain ⟨id, d₁, hid, h⟩ := Reading.bind_run_eq_ok.mp h
        obtain ⟨widgets, d₂, hinner, h⟩ := Reading.bind_run_eq_ok.mp h
        obtain ⟨others, d₃, hrest, h⟩ := Reading.bind_run_eq_ok.mp h
        cases h
        have hshows := shows_of_forest hinner
        rw [if_pos hdisplay, hshows.displays_eq_nil, List.append_nil, List.singleton_append]
        refine .cons ⟨?_, hshows⟩ (ihrest hrest)
        unfold Element.required at hid
        split at hid
        · rename_i found hfound
          cases hid
          exact hfound
        · cases hid
      · obtain ⟨_, d₁, hdeclare, h⟩ := Reading.bind_run_eq_ok.mp h
        obtain ⟨first, d₂, hinner, h⟩ := Reading.bind_run_eq_ok.mp h
        obtain ⟨others, d₃, hrest, h⟩ := Reading.bind_run_eq_ok.mp h
        cases h
        rw [if_neg hdisplay, List.nil_append]
        exact List.rel_append (ihinner hinner) (ihrest hrest)
      · cases h

end Loading

namespace Skin

/-- The displays of a skin from a document without include elements are those that reading the
document recursively gives; there is one for each display element, in the order of the document,
and its widgets show what is in the element. -/
theorem displays_of_loadBytes {env : Environment} {options : LoadOptions} {base : FilePath}
    {bytes : List UInt8} {skin : Skin} (hload : Skin.loadBytes env options base bytes = .ok skin)
    (hplain : ∀ event ∈ (env.scan bytes).events, event.include? = none) :
    let l : Loading := { env, base, options }
    ∃ document : Content, (env.scan bytes).events.map Event.piece = document.pieces ∧
      (∃ d, (l.displays document).run l.blank = .ok (skin.displays, d)) ∧
      List.Forall₂ l.ShowsDisplay document.displays skin.displays := by
  intro l
  obtain ⟨d, ⟨hwhole, haccepts⟩, hskin⟩ := loadBytes_eq_ok_iff.mp hload
  obtain ⟨left, hopen, hleft⟩ := Markup.openTags_scan env.host.charset (Text.decodeBytes bytes)
  obtain rfl := hleft hwhole
  have hnested := (Markup.openTags_eq_nil_iff_nested _).mp hopen
  obtain ⟨document, hdocument⟩ := hnested.exists_content
  have htakes : Accepts (l.takes false) l.blank (env.scan bytes).events d := by
    refine (Markup.accepts_congr ?_).mp haccepts
    intro event hevent d
    rw [Loading.receive_of_plain (hplain event hevent)]
    simp [Loading.takes, l]
  obtain ⟨displays, hrun, hdisplays⟩ :=
    Loading.displays_of_accepts hdocument hplain rfl rfl htakes
  obtain rfl : skin.displays = displays := by
    unfold ofDraft at hskin
    split at hskin
    · cases hskin
    · cases hskin
      exact hdisplays
  exact ⟨document, hdocument, ⟨_, hrun⟩, Loading.showsDisplay_of_displays hrun⟩

/-- A text with a comment in it, in a block, beside a pixel. -/
theorem displays_of_loadBytes_block :
    let env := Environment.ofTexts []
    let text := "<skin version=\"1.0\"><variable id=\"v\" value=\"1\"/><display id=\"d\"><block>" ++
      "<scrolltext font=\"f\"> a<!-- b --> c </scrolltext><pixel/></block></display></skin>"
    let l : Loading := { env, base := ⟨"s"⟩ }
    let events := (env.scan text.toUTF8.data.toList).events
    ∃ skin, Skin.loadBytes env {} ⟨"s"⟩ text.toUTF8.data.toList = .ok skin ∧
      skin.displays.map (fun display => display.widgets.map fun w =>
        (w.name, w.children.map Widget.name)) = [[("block", ["text", "pixel"])]] ∧
      (∀ event ∈ events, event.include? = none) ∧
      ∃ document : Content, events.map Event.piece = document.pieces ∧
        (∃ d, (l.displays document).run l.blank = .ok (skin.displays, d)) ∧
        List.Forall₂ l.ShowsDisplay document.displays skin.displays := by
  intro env text l events
  have hrun : (Skin.loadBytes env {} ⟨"s"⟩ text.toUTF8.data.toList).toOption.map (fun skin =>
      skin.displays.map fun display => display.widgets.map fun w =>
        (w.name, w.children.map Widget.name)) = some [[("block", ["text", "pixel"])]] := by
    decide +kernel
  have hplain : ∀ event ∈ events, event.include? = none := by decide +kernel
  obtain ⟨skin, hskin, hnames⟩ := Option.map_eq_some_iff.mp hrun
  have hload := toOption_eq_some_iff.mp hskin
  exact ⟨skin, hload, hnames, hplain, displays_of_loadBytes hload hplain⟩

end Skin

end PanelSkin
