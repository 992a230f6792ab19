import PanelSkin.Proofs.Skin.Events
import PanelSkin.Proofs.Widget.Shape

/-!
The shape of loaded skins. Widgets are put in order while they join their parents, one rule at a
time; together the rules leave no list without its item and no item elsewhere, in skins of any
files, and showing a skin keeps it so.
-/

namespace PanelSkin

open Widget (NoItems ShapedRow shaped_leaf shaped_block shaped_list)

namespace Widget

/-- A widget whose element is open: what it has so far is in shape, or it is a list that waits for
its item. -/
def Growing (w : Widget) : Prop := w.Shaped ∨ ∃ style, w = .list style [] none

theorem IsBare.growing {w : Widget} (h : w.IsBare) : w.Growing := by
  cases w with
  | leaf style kind => exact .inl (shaped_leaf style kind)
  | block style children =>
      obtain rfl : children = [] := h
      exact .inl (shaped_block.mpr ⟨by simp [NoItems], by simp⟩)
  | list style children rows =>
      obtain ⟨rfl, rfl⟩ : children = [] ∧ rows = none := h
      exact .inr ⟨style, rfl⟩

end Widget

theorem Widget.shapedRow_concat {row : List Widget} {w : Widget} (hrow : ShapedRow row)
    (hitem : w.isItem = false) (hw : w.Shaped) : ShapedRow (row ++ [w]) := by
  constructor
  · intro child hchild
    rcases List.mem_append.mp hchild with hchild | hchild
    · exact hrow.1 child hchild
    · obtain rfl := List.mem_singleton.mp hchild
      exact hitem
  · intro child hchild
    rcases List.mem_append.mp hchild with hchild | hchild
    · exact hrow.2 child hchild
    · obtain rfl := List.mem_singleton.mp hchild
      exact hw

/-- A container that takes one more child is in shape: a list takes its item first, and from then
on no other. -/
theorem Draft.adopt_shaped {child parent w : Widget} (hchild : child.Shaped)
    (hparent : parent.Growing) (h : adopt child parent = .ok w) : w.Shaped := by
  cases parent with
  | leaf style kind => cases h
  | block style children =>
      rcases hparent with hshaped | ⟨_, hlist⟩
      · unfold adopt at h
        split_ifs at h with hitem
        cases h
        exact shaped_block.mpr
          (Widget.shapedRow_concat (shaped_block.mp hshaped) (by simpa using hitem) hchild)
      · cases hlist
  | list style children rows =>
      have hplace : child.isItem = children.isEmpty := by
        by_contra hplace
        simp only [adopt, hplace, if_false] at h
        split_ifs at h
      simp only [adopt, hplace, if_true] at h
      cases h
      rcases hparent with hshaped | ⟨_, hlist⟩
      · obtain ⟨⟨itemStyle, height, others, rfl, hothers⟩, hrows⟩ := shaped_list.mp hshaped
        have hmore := Widget.shapedRow_concat hothers hplace hchild
        exact shaped_list.mpr ⟨⟨itemStyle, height, others ++ [child], rfl, hmore⟩, hrows⟩
      · cases hlist
        obtain ⟨itemStyle, height, rfl⟩ := Widget.eq_leaf_of_isItem hplace
        exact shaped_list.mpr
          ⟨⟨itemStyle, height, [], rfl, by simp [NoItems], by simp⟩, by simp⟩

/-- The widgets in the making are in order: those of displays are finished, the open ones grow. -/
structure Workpiece.Orderly (w : Workpiece) : Prop where
  displays : ∀ display ∈ w.displays, ShapedRow display.widgets
  display : ∀ display ∈ w.display, ShapedRow display.widgets
  opened : ∀ widget ∈ w.opened, widget.Growing

namespace Draft

variable {d d' : Draft} {w : Widget}

theorem push_orderly (hd : d.workpiece.Orderly) (hw : w.Growing) :
    (d.push w).workpiece.Orderly :=
  { hd with opened := List.forall_mem_cons.mpr ⟨hw, hd.opened⟩ }

theorem addText_orderly (hd : d.workpiece.Orderly) (content : String) :
    (d.addText content).workpiece.Orderly := by
  unfold addText
  split
  · exact { hd with }
  · exact { hd with }
  · exact hd

theorem finishDisplay_orderly (hd : d.workpiece.Orderly) : d.finishDisplay.workpiece.Orderly := by
  unfold finishDisplay
  split
  · exact hd
  · rename_i display hdisplay
    refine { hd with displays := ?_, display := ?_ }
    · intro other hother
      rcases List.mem_append.mp hother with hother | hother
      · exact hd.displays other hother
      · obtain rfl := List.mem_singleton.mp hother
        exact hd.display other hdisplay
    · intro other hother
      cases hother

theorem attach_orderly (hd : d.workpiece.Orderly) (hw : w.Shaped) (h : d.attach w = .ok d') :
    d'.workpiece.Orderly := by
  unfold attach at h
  split at h
  · rename_i parent outer hopened
    have hgrowing : ∀ widget ∈ parent :: outer, widget.Growing := hopened ▸ hd.opened
    obtain ⟨hparent, houter⟩ := List.forall_mem_cons.mp hgrowing
    cases hadopt : adopt w parent with
    | error cause =>
        rw [hadopt] at h
        cases h
    | ok grown =>
        rw [hadopt] at h
        cases h
        have hgrown := adopt_shaped hw hparent hadopt
        exact { hd with opened := List.forall_mem_cons.mpr ⟨.inl hgrown, houter⟩ }
  · split_ifs at h with hitem
    split at h
    · rename_i display hdisplay
      cases h
      refine { hd with display := ?_ }
      intro other hother
      cases hother
      exact Widget.shapedRow_concat (hd.display display hdisplay) (by simpa using hitem) hw
    · cases h

end Draft

namespace Loading

variable {l : Loading}

/-- A growing widget whose element ends is in shape, for a list without its item is refused. -/
theorem completed_ensures (text : String) {w : Widget} (hw : w.Growing) :
    (l.completed text w).Ensures Widget.Shaped := by
  unfold completed
  split
  · exact (Reading.Ensures.anyway _).bind fun _ _ => .pure (shaped_leaf _ _)
  · exact (Reading.Ensures.anyway _).bind fun _ _ => .pure (shaped_leaf _ _)
  · exact .throw _
  · rename_i hlist
    rcases hw with hshaped | ⟨style, rfl⟩
    · exact .pure hshaped
    · exact absurd rfl (hlist style none)

/-- The widgets stay in order from one event to the next. -/
theorem handle_orderly {included : Bool} {event : Markup.Event} {d d' : Draft}
    (hd : d.workpiece.Orderly) (h : (l.handle included event).run d = .ok ((), d')) :
    d'.workpiece.Orderly := by
  cases event with
  | text content line =>
      cases h
      exact Draft.addText_orderly hd content
  | start tag attributes line =>
      cases started_of_start h with
      | declared htag hrun =>
          rw [(l.declare_apart _).keeps hrun]
          exact hd
      | display id htag hid hheader hnone =>
          refine { hd with display := ?_ }
          intro display hdisplay
          cases hdisplay
          exact ⟨by simp [NoItems], by simp⟩
      | widget hdisplay htag hrun =>
          have hbare := (Element.widget_ensures l _).of_run _ _ _ hrun
          rw [← (Element.widget_apart l _).keeps hrun] at hd
          exact Draft.push_orderly hd hbare.2.growing
  | finish tag line =>
      cases finished_of_finish h with
      | nothing htag => exact hd
      | display htag => exact Draft.finishDisplay_orderly hd
      | widget htag hopened hcompleted hattach =>
          have hgrowing := hd.opened
          rw [Draft.workpiece, hopened] at hgrowing
          obtain ⟨hw, houter⟩ := List.forall_mem_cons.mp hgrowing
          have hfinished := (completed_ensures _ hw).of_run _ _ _ hcompleted
          have hbetween := (completed_apart l _ _).keeps hcompleted
          refine Draft.attach_orderly ?_ hfinished hattach
          rw [hbetween]
          exact { hd with opened := houter }

theorem ReadsBytes.orderly {depth : Nat} {directory : FilePath} {bytes : List UInt8}
    {d d' : Draft} (h : l.ReadsBytes depth directory bytes d d') (hd : d.workpiece.Orderly) :
    d'.workpiece.Orderly :=
  h.invariant (P := fun d => d.workpiece.Orderly)
    (fun _ _ _ _ _ hbefore hrun => handle_orderly hbefore hrun) hd

theorem blank_orderly : l.blank.workpiece.Orderly where
  displays _ h := by cases h
  display _ h := by cases h
  opened _ h := by cases h

end Loading

namespace Skin

/-- All displays are in shape. -/
def Orderly (s : Skin) : Prop := ∀ display ∈ s.displays, ShapedRow display.widgets

variable {env : Environment} {options : LoadOptions} {skin : Skin}

theorem ofDraft_displays {l : Loading} {d : Draft} (h : ofDraft l d = .ok skin) :
    skin.displays = d.displays := by
  unfold ofDraft at h
  split at h
  · cases h
  · cases h
    rfl

theorem loadBytes_orderly {base : FilePath} {bytes : List UInt8}
    (h : Skin.loadBytes env options base bytes = .ok skin) : skin.Orderly := by
  obtain ⟨d, hreads, hskin⟩ := loadBytes_eq_ok_iff.mp h
  rw [Orderly, ofDraft_displays hskin]
  exact (hreads.orderly Loading.blank_orderly).displays

theorem load_orderly {path : FilePath} (h : Skin.load env options path = .ok skin) :
    skin.Orderly := by
  obtain ⟨d, ⟨bytes, -, hreads⟩, hskin⟩ := load_eq_ok_iff.mp h
  rw [Orderly, ofDraft_displays hskin]
  exact (hreads.orderly Loading.blank_orderly).displays

theorem replaceWidgets_orderly {displays : List Display} {id : String} {widgets : List Widget}
    (hdisplays : ∀ display ∈ displays, ShapedRow display.widgets) (hwidgets : ShapedRow widgets) :
    ∀ display ∈ replaceWidgets id widgets displays, ShapedRow display.widgets := by
  induction displays with
  | nil => exact hdisplays
  | cons first rest ih =>
      obtain ⟨hfirst, hrest⟩ := List.forall_mem_cons.mp hdisplays
      unfold replaceWidgets
      split_ifs with hid
      · exact List.forall_mem_cons.mpr ⟨hwidgets, hrest⟩
      · exact List.forall_mem_cons.mpr ⟨hfirst, ih hrest⟩

/-- Showing a display keeps all of them in shape. -/
theorem render_orderly {s s' : Skin} {id : String} {width height : Nat}
    {outcome : Except SkinError (List DrawCall)} (hs : s.Orderly)
    (h : s.render env id width height = some (outcome, s')) : s'.Orderly := by
  unfold render at h
  split at h
  · cases h
    exact hs
  · rename_i display hfound
    have hdisplay : ShapedRow display.widgets := hs display (List.mem_of_find?_eq_some hfound)
    have hdraws := Widget.drawAll_shaped hdisplay.1 fun w hw => (hdisplay.2 w hw).keepsShape
    obtain ⟨⟨⟨widgets, calls⟩, between⟩, hevaluated, hdone⟩ := Option.bind_eq_some_iff.mp h
    obtain ⟨⟨⟨drawn, cells⟩, shelf⟩, hrun, hbetween⟩ := Option.map_eq_some_iff.mp hevaluated
    cases hbetween
    cases hdone
    exact replaceWidgets_orderly hs ((hdraws _ _ _).of_run _ _ _ _ _ hrun)

/-- What becomes of a skin while it is shown, at one time or another, and otherwise used in ways
that leave its displays alone. -/
inductive Becomes (s : Skin) : Skin → Prop where
  | same : Becomes s s
  | shown {before after : Skin} {env : Environment} {id : String} {width height : Nat}
      {outcome : Except SkinError (List DrawCall)} (h : Becomes s before)
      (hrender : before.render env id width height = some (outcome, after)) : Becomes s after
  | used {before after : Skin} (h : Becomes s before)
      (hdisplays : after.displays = before.displays) : Becomes s after

theorem Becomes.orderly {s later : Skin} (h : s.Becomes later) (hs : s.Orderly) :
    later.Orderly := by
  induction h with
  | same => exact hs
  | shown _ hrender ih => exact render_orderly ih hrender
  | used _ hdisplays ih =>
      rw [Orderly, hdisplays]
      exact ih

/-- In a skin that was loaded, and then shown any number of times, each list starts with its item,
which says how high the rows are; no item stands elsewhere, neither later in a list, nor in a row
that was drawn, nor in a block, nor in a display itself. -/
theorem lists_of_loaded {skin later : Skin}
    (hload : (∃ path, Skin.load env options path = .ok skin) ∨
      ∃ base bytes, Skin.loadBytes env options base bytes = .ok skin)
    (hlater : skin.Becomes later) :
    ∀ display ∈ later.displays, ∀ top ∈ display.widgets,
      top.isItem = false ∧ ∀ w : Widget, w.Within top → w.InOrder := by
  have hskin : skin.Orderly := by
    rcases hload with ⟨path, hpath⟩ | ⟨base, bytes, hbytes⟩
    · exact load_orderly hpath
    · exact loadBytes_orderly hbytes
  intro display hdisplay top htop
  obtain ⟨hitems, hshaped⟩ := hlater.orderly hskin display hdisplay
  exact ⟨hitems top htop, hshaped top htop⟩

/-- A list whose item comes from a file, shown once. -/
theorem lists_of_loaded_item_elsewhere :
    let env := Environment.ofTexts [("s/item.xml", "<item height=\"8\"/>")]
    let text := "<skin version=\"1.0\"><display id=\"d\">" ++
      "<list><include path=\"item.xml\"/><pixel/></list></display></skin>"
    ∃ skin later, Skin.loadBytes env {} ⟨"s"⟩ text.toUTF8.data.toList = .ok skin ∧
      skin.Becomes later ∧
      later.displays.map (fun display => display.widgets.map Widget.name) = [["list"]] ∧
      ∀ display ∈ later.displays, ∀ top ∈ display.widgets,
        top.isItem = false ∧ ∀ w : Widget, w.Within top → w.InOrder := by
  intro env text
  have hrun : ((Skin.loadBytes env {} ⟨"s"⟩ text.toUTF8.data.toList).toOption.bind fun skin =>
      (skin.render env "d" 24 20).map fun (_, later) =>
        later.displays.map fun display => display.widgets.map Widget.name) = some [["list"]] := by
    decide +kernel
  obtain ⟨skin, hskin, hrun⟩ := Option.bind_eq_some_iff.mp hrun
  obtain ⟨⟨outcome, later⟩, hrender, hnames⟩ := Option.map_eq_some_iff.mp hrun
  have hload := toOption_eq_some_iff.mp hskin
  have hbecomes : skin.Becomes later := .shown .same hrender
  exact ⟨skin, later, hload, hbecomes, hnames,
    lists_of_loaded (.inr ⟨_, _, hload⟩) hbecomes⟩

end Skin

end PanelSkin
