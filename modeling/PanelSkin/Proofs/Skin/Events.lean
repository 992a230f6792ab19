import PanelSkin.Proofs.Markup.Logging
import PanelSkin.Proofs.Skin.Reading
import PanelSkin.Skin.Basic

/-!
What one event does to a draft, and what a whole file does. An event either starts an include
element, and then the file that it names is read, or it is handled by itself: `Started` and
`Finished` list the outcomes. What every event of the latter kind preserves is preserved by files
with any includes in them.
-/

namespace PanelSkin

namespace Markup

variable {σ ε : Type} {receive : Receiver σ ε}

/-- The attributes of an include element that starts with this event. -/
def Event.include? : Event → Option Attributes
  | .start tag attributes _ => if tag = "include" then some attributes else none
  | _ => none

theorem Event.include?_eq_some_iff {event : Event} {attributes : Attributes} :
    event.include? = some attributes ↔ ∃ line, event = .start "include" attributes line := by
  cases event with
  | start tag others line =>
      by_cases htag : tag = "include" <;> simp [Event.include?, htag]
  | finish tag line => simp [Event.include?]
  | text content line => simp [Event.include?]

theorem accepts_nil {state final : σ} : Accepts receive state [] final ↔ final = state := by
  constructor
  · intro h
    cases h
    rfl
  · rintro rfl
    rfl

theorem accepts_cons {state final : σ} {event : Event} {events : List Event} :
    Accepts receive state (event :: events) final ↔
      ∃ next, receive event state = .ok next ∧ Accepts receive next events final := by
  constructor
  · intro h
    unfold Accepts at h
    rw [List.foldlM_cons] at h
    cases hfirst : receive event state with
    | error cause =>
        rw [hfirst] at h
        cases h
    | ok next =>
        rw [hfirst] at h
        exact ⟨next, rfl, h⟩
  · rintro ⟨next, hfirst, hrest⟩
    exact hrest.cons hfirst

theorem accepts_append {state final : σ} {events more : List Event} :
    Accepts receive state (events ++ more) final ↔
      ∃ between, Accepts receive state events between ∧ Accepts receive between more final := by
  induction events generalizing state with
  | nil => simp [accepts_nil]
  | cons event events ih =>
      simp only [List.cons_append, accepts_cons, ih]
      constructor
      · rintro ⟨next, hfirst, between, hevents, hmore⟩
        exact ⟨between, ⟨next, hfirst, hevents⟩, hmore⟩
      · rintro ⟨between, ⟨next, hfirst, hevents⟩, hmore⟩
        exact ⟨next, hfirst, between, hevents, hmore⟩

theorem accepts_congr {other : Receiver σ ε} {state final : σ} {events : List Event}
    (h : ∀ event ∈ events, ∀ s, receive event s = other event s) :
    Accepts receive state events final ↔ Accepts other state events final := by
  induction events generalizing state with
  | nil => rw [accepts_nil, accepts_nil]
  | cons event events ih =>
      obtain ⟨hfirst, hrest⟩ := List.forall_mem_cons.mp h
      simp only [accepts_cons, hfirst, ih hrest]

/-- What every single event preserves is preserved by a run of events. -/
theorem Accepts.invariant {P : σ → Prop} {state final : σ} {events : List Event}
    (hstep : ∀ event ∈ events, ∀ s t, P s → receive event s = .ok t → P t)
    (h : Accepts receive state events final) (hstate : P state) : P final := by
  induction events generalizing state with
  | nil =>
      rw [accepts_nil] at h
      rwa [h]
  | cons event events ih =>
      obtain ⟨next, hfirst, hrest⟩ := accepts_cons.mp h
      have hnext := hstep event List.mem_cons_self state next hstate hfirst
      exact ih (fun e he => hstep e (List.mem_cons_of_mem event he)) hrest hnext

theorem Accepts.exists_of_mem {state final : σ} {events : List Event}
    (h : Accepts receive state events final) {event : Event} (hmem : event ∈ events) :
    ∃ before after, receive event before = .ok after := by
  induction events generalizing state with
  | nil => cases hmem
  | cons first rest ih =>
      obtain ⟨next, hfirst, hrest⟩ := accepts_cons.mp h
      rcases List.mem_cons.mp hmem with rfl | hmem
      · exact ⟨_, next, hfirst⟩
      · exact ih hrest hmem

/-- A delivery fails at an event that the receiver refuses. -/
theorem exists_refused_of_deliver {events : List Event} {state final : σ} {line : Nat}
    {cause : ε} (h : deliver receive events state = (final, some (line, cause))) :
    ∃ event ∈ events, ∃ before, receive event before = .error cause ∧ line = event.line := by
  induction events generalizing state with
  | nil => cases h
  | cons event events ih =>
      cases hfirst : receive event state with
      | error other =>
          rw [deliver_cons_of_error hfirst] at h
          cases h
          exact ⟨event, List.mem_cons_self, _, hfirst, rfl⟩
      | ok next =>
          rw [deliver_cons_of_ok hfirst] at h
          obtain ⟨refused, hmem, hrefused⟩ := ih h
          exact ⟨refused, List.mem_cons_of_mem event hmem, hrefused⟩

/-- What a scan found is not taken to its end either because it ends in an error of its own, or
because of an event that the receiver refuses. -/
theorem Scan.deliver_eq_some {found : Scan} {state final : σ} {cause : ParseError ε}
    (h : found.deliver receive state = (final, some cause)) :
    (∃ line reason, cause = .malformed line reason) ∨ ∃ event ∈ found.events, ∃ before reason,
      receive event before = .error reason ∧ cause = .refused event.line reason := by
  unfold Scan.deliver at h
  split at h
  · rename_i reached line reason hdeliver
    cases h
    obtain ⟨event, hmem, before, hrefused, rfl⟩ := exists_refused_of_deliver hdeliver
    exact .inr ⟨event, hmem, before, reason, hrefused, rfl⟩
  · obtain ⟨⟨line, reason⟩, -, hcause⟩ := Option.map_eq_some_iff.mp (Prod.mk.inj h).2
    exact .inl ⟨line, reason, hcause.symm⟩

theorem deliver_eq_none_iff {events : List Event} {state final : σ} :
    deliver receive events state = (final, none) ↔ Accepts receive state events final := by
  induction events generalizing state with
  | nil =>
      rw [accepts_nil]
      simp [deliver, eq_comm]
  | cons event events ih =>
      rw [accepts_cons]
      cases hfirst : receive event state with
      | error cause => simp [deliver_cons_of_error hfirst]
      | ok next => simp [deliver_cons_of_ok hfirst, ih]

theorem Scan.deliver_eq_none_iff {found : Scan} {state final : σ} :
    found.deliver receive state = (final, none) ↔
      found.failure = none ∧ Accepts receive state found.events final := by
  rw [← Markup.deliver_eq_none_iff]
  unfold Scan.deliver
  obtain ⟨reached, refusal⟩ := Markup.deliver receive found.events state
  cases refusal with
  | none => simp [and_comm]
  | some refusal => simp

end Markup

theorem toOption_eq_some_iff {ε α : Type} {x : Except ε α} {a : α} :
    x.toOption = some a ↔ x = .ok a := by
  cases x with
  | error cause => simp [Except.toOption]
  | ok b => simp [Except.toOption]

open Markup (Event Attributes Accepts)

/-- A skin file, with the directory that its own includes start from. -/
structure Source where
  path : FilePath
  directory : FilePath
  deriving DecidableEq, Repr

namespace Source

/-- A file and the directory it lies in; `around` if the path has no directory. -/
def ofPath (path around : FilePath) : Source := ⟨path, path.parent?.getD around⟩

/-- The file that an include element in file `s` names. -/
def included (s : Source) (file : String) : Source := ofPath (s.directory.join ⟨file⟩) s.directory

end Source

/-- An environment of some files, by their paths and texts, without pictures, fonts and tokens. -/
def Environment.ofTexts (files : List (String × String)) : Environment where
  host := { tokenId := fun _ => none, token := fun _ _ => .number 0 }
  skinFile := fun path =>
    match files.lookup path.text with
    | some text => .ok text.toUTF8.data.toList
    | none => .error .missing
  loadPicture := fun path => .error (.unsupportedFormat path)
  loadFont := fun _ _ => .error .unparsable

/-- What the scan of a file with these bytes finds. -/
def Environment.scan (env : Environment) (bytes : List UInt8) : Markup.Scan :=
  Markup.scan env.host.charset (Text.decodeBytes bytes)

namespace Draft

theorem adopt_isPlain {child parent : Widget} {cause : LoadError}
    (h : adopt child parent = .error cause) : cause.IsPlain := by
  cases parent with
  | leaf style kind =>
      cases h
      trivial
  | block style children =>
      unfold adopt at h
      split_ifs at h
      cases h
      trivial
  | list style children rows =>
      by_cases hplace : child.isItem = children.isEmpty
      · simp [adopt, hplace] at h
      · simp only [adopt, hplace, if_false] at h
        split_ifs at h
        · cases h
          trivial
        · cases h
          trivial

theorem attach_isPlain {d : Draft} {w : Widget} {cause : LoadError}
    (h : d.attach w = .error cause) : cause.IsPlain := by
  unfold attach at h
  split at h
  · rename_i parent outer hopened
    cases hadopt : adopt w parent with
    | error other =>
        rw [hadopt] at h
        cases h
        exact adopt_isPlain hadopt
    | ok grown =>
        rw [hadopt] at h
        cases h
  · split_ifs at h
    · cases h
      trivial
    · split at h
      · cases h
      · cases h
        trivial

end Draft

namespace Loading

variable {l : Loading}

/-- Handles an event that starts no include element. -/
def handle (l : Loading) (included : Bool) : Event → Reading Unit
  | .text content _ => modify (·.addText content)
  | .finish tag _ => l.finish tag
  | .start tag attributes _ => l.start included { tag, attributes }

theorem receive_of_plain {event : Event} (hplain : event.include? = none) (depth : Nat)
    (dir : FilePath) (d : Draft) : l.receive depth dir event d =
      ((l.handle (depth != l.options.includeDepth) event).run d).map (·.2) := by
  cases event with
  | text content line => simp only [receive, handle]; rfl
  | finish tag line => simp only [receive, handle]
  | start tag attributes line =>
      have htag : tag ≠ "include" := by
        rintro rfl
        simp [Event.include?] at hplain
      simp only [receive, htag, if_false, handle]

theorem receive_of_plain_eq_ok {event : Event} (hplain : event.include? = none) {depth : Nat}
    {dir : FilePath} {d d' : Draft} : l.receive depth dir event d = .ok d' ↔
      (l.handle (depth != l.options.includeDepth) event).run d = .ok ((), d') := by
  rw [receive_of_plain hplain]
  cases (l.handle (depth != l.options.includeDepth) event).run d with
  | error cause => simp [Except.map]
  | ok outcome => simp [Except.map, Prod.ext_iff]

/-- Reading a text, in which includes can nest `depth` deep, leads from one draft to another. -/
def ReadsBytes (l : Loading) (depth : Nat) (directory : FilePath) (bytes : List UInt8)
    (d d' : Draft) : Prop :=
  (l.env.scan bytes).failure = none ∧
    Accepts (l.receive depth directory) d (l.env.scan bytes).events d'

/-- Reading a file leads from one draft to another. -/
def ReadsFile (l : Loading) (depth : Nat) (s : Source) (d d' : Draft) : Prop :=
  ∃ bytes, l.env.skinFile s.path = .ok bytes ∧ l.ReadsBytes depth s.directory bytes d d'

theorem parse_eq_none_iff {depth : Nat} {directory : FilePath} {bytes : List UInt8}
    {d d' : Draft} :
    Markup.parse l.env.host.charset (l.receive depth directory) bytes d = (d', none) ↔
      l.ReadsBytes depth directory bytes d d' := Markup.Scan.deliver_eq_none_iff

theorem parseFile_eq_none_iff {depth : Nat} {s : Source} {d d' : Draft} :
    Markup.parseFile l.env.skinFile l.env.host.charset (l.receive depth s.directory) s.path d =
      (d', none) ↔ l.ReadsFile depth s d d' := by
  unfold ReadsFile Markup.parseFile
  cases l.env.skinFile s.path with
  | error cause => simp
  | ok bytes => simp [parse_eq_none_iff]

section Include

variable {attributes : Attributes} {file : String} {line : Nat} {s : Source} {d d' : Draft}

theorem receive_include_without_path (hpath : attributes.get? "path" = none) (depth : Nat) :
    l.receive depth s.directory (.start "include" attributes line) d =
      .error (.missingAttribute "include" "path") := by
  cases depth <;> simp [receive, hpath]

theorem receive_include_too_deep (hpath : attributes.get? "path" = some file) :
    l.receive 0 s.directory (.start "include" attributes line) d =
      .error (.includeDepth (s.included file).path l.options.includeDepth) := by
  simp only [receive, if_true, hpath]
  rfl

theorem receive_include (hpath : attributes.get? "path" = some file) (inner : Nat) :
    l.receive (inner + 1) s.directory (.start "include" attributes line) d =
      match Markup.parseFile l.env.skinFile l.env.host.charset
        (l.receive inner (s.included file).directory) (s.included file).path d with
      | (d', none) => .ok d'
      | (_, some cause) => .error (.inInclude (s.included file).path cause) := by
  simp only [receive, if_true, hpath]
  rfl

/-- An include element is taken if it names a file, includes may nest one deeper, and the file
is read. -/
theorem receive_include_eq_ok {depth : Nat} :
    l.receive depth s.directory (.start "include" attributes line) d = .ok d' ↔
      ∃ file inner, attributes.get? "path" = some file ∧ depth = inner + 1 ∧
        l.ReadsFile inner (s.included file) d d' := by
  cases hpath : attributes.get? "path" with
  | none => simp [receive_include_without_path hpath]
  | some file =>
      cases depth with
      | zero => simp [receive_include_too_deep hpath]
      | succ inner =>
          rw [receive_include hpath]
          have hfile : Markup.parseFile l.env.skinFile l.env.host.charset
              (l.receive inner (s.included file).directory) (s.included file).path d = (d', none) ↔
              l.ReadsFile inner (s.included file) d d' := parseFile_eq_none_iff
          constructor
          · intro h
            split at h
            · rename_i reached hparse
              cases h
              exact ⟨file, inner, rfl, rfl, hfile.mp hparse⟩
            · cases h
          · rintro ⟨_, _, hsame, hdepth, hreads⟩
            cases hsame
            cases hdepth
            rw [hfile.mpr hreads]

end Include

/-- What every event preserves that starts no include element is preserved by texts, whatever
they include. -/
theorem ReadsBytes.invariant {P : Draft → Prop}
    (hstep : ∀ included event d d', event.include? = none → P d →
      (l.handle included event).run d = .ok ((), d') → P d')
    {depth : Nat} {directory : FilePath} {bytes : List UInt8} {d d' : Draft}
    (h : l.ReadsBytes depth directory bytes d d') (hd : P d) : P d' := by
  induction depth using Nat.strong_induction_on generalizing directory bytes d d' with
  | _ depth ih =>
      refine h.2.invariant ?_ hd
      intro event _ before after hbefore htaken
      cases hinclude : event.include? with
      | none =>
          have hrun := (receive_of_plain_eq_ok hinclude).mp htaken
          exact hstep _ event before after hinclude hbefore hrun
      | some attributes =>
          obtain ⟨line, rfl⟩ := Markup.Event.include?_eq_some_iff.mp hinclude
          obtain ⟨_, inner, -, rfl, _, -, hreads⟩ :=
            (receive_include_eq_ok (s := ⟨directory, directory⟩)).mp htaken
          exact ih inner (Nat.lt_succ_self inner) hreads hbefore

/-- Takes the start of an element that declares something for the whole skin. -/
def declare (l : Loading) (e : Element) : Reading Unit :=
  if e.tag = "skin" then e.readHeader l
  else if e.tag = "variable" then e.declareVariable l
  else e.declareFont l

theorem declare_made (l : Loading) (e : Element) : (l.declare e).Made l := by
  unfold declare
  split
  · exact e.readHeader_made l
  · split
    · exact e.declareVariable_made l
    · exact e.declareFont_made l

theorem declare_apart (l : Loading) (e : Element) : (l.declare e).Apart := (l.declare_made e).apart

/-- What the start of an element that is no include does to a draft. -/
inductive Started (l : Loading) (e : Element) (d : Draft) : Draft → Prop where
  | declared {d' : Draft} (htag : e.tag = "skin" ∧ d.header = none ∨
      (e.tag = "variable" ∨ e.tag = "font") ∧ d.display = none)
      (hrun : (l.declare e).run d = .ok ((), d')) : Started l e d d'
  | display (id : String) (htag : e.tag = "display") (hid : e.attributes.get? "id" = some id)
      (hheader : d.header.isSome = true) (hnone : d.display = none) :
      Started l e d { d with display := some { id } }
  | widget {w : Widget} {d' : Draft} (hdisplay : d.display.isSome = true)
      (htag : e.tag ≠ "skin" ∧ e.tag ≠ "variable" ∧ e.tag ≠ "font" ∧ e.tag ≠ "display")
      (hrun : (e.widget l).run d = .ok (w, d')) : Started l e d (d'.push w)

theorem started_of_start {included : Bool} {e : Element} {d d' : Draft}
    (h : (l.start included e).run d = .ok ((), d')) : Started l e d d' := by
  rw [start, Reading.get_bind_run] at h
  split_ifs at h with hskin hlate hheader hdeclares hinside hvariable hfont houtside
  · cases h
  · refine .declared (.inl ⟨hskin, ?_⟩) (by rwa [declare, if_pos hskin])
    simp_all
  · cases h
  · cases h
  · refine .declared (.inr ⟨.inl hvariable, ?_⟩) (by rwa [declare, if_neg hskin, if_pos hvariable])
    simpa using hinside
  · refine .declared (.inr ⟨.inr hfont, ?_⟩) (by rwa [declare, if_neg hskin, if_neg hvariable])
    simpa using hinside
  · have htag : e.tag = "display" := by simpa [hvariable, hfont] using hdeclares
    obtain ⟨id, between, hid, hset⟩ := Reading.bind_run_eq_ok.mp h
    cases hset
    unfold Element.required at hid
    split at hid
    · rename_i found hfound
      cases hid
      have hsome : d.header.isSome = true := Option.isSome_iff_ne_none.mpr (by simpa using hheader)
      exact .display id htag hfound hsome (by simpa using hinside)
    · cases hid
  · cases h
  · obtain ⟨w, between, hwidget, hpush⟩ := Reading.bind_run_eq_ok.mp h
    cases hpush
    have htag : e.tag ≠ "variable" ∧ e.tag ≠ "font" ∧ e.tag ≠ "display" := by simpa using hdeclares
    have hdisplay : d.display.isSome = true :=
      Option.isSome_iff_ne_none.mpr (by simpa using houtside)
    exact .widget hdisplay ⟨hskin, htag⟩ hwidget

/-- Reads the text of a finished widget, which the characters in its element make up. -/
def completed (l : Loading) (text : String) : Widget → Reading Widget
  | .leaf style (.text box) => do
    return .leaf style (.text { box with
      text := ← l.readTemplate (String.ofList (Text.trim text.toList)) })
  | .leaf style (.button button) => do
    return .leaf style (.button { button with
      text := ← l.readTemplate (String.ofList (Text.trim text.toList)) })
  | .list _ [] _ => throw .missingItem
  | w => pure w

theorem completed_made (l : Loading) (text : String) (w : Widget) :
    (l.completed text w).Made l := by
  unfold completed
  split
  · exact (Reading.Made.readTemplate _).bind fun _ => .pure _
  · exact (Reading.Made.readTemplate _).bind fun _ => .pure _
  · exact .throw trivial
  · exact .pure _

theorem completed_apart (l : Loading) (text : String) (w : Widget) : (l.completed text w).Apart :=
  (l.completed_made text w).apart

/-- Puts a finished widget in its place. -/
def join (w : Widget) : Reading Unit := do
  match (← get).attach w with
  | .ok d => set d
  | .error cause => throw cause

theorem join_run (w : Widget) (d : Draft) :
    (join w).run d = (d.attach w).map fun d' => ((), d') := by
  rw [join, Reading.get_bind_run]
  cases d.attach w with
  | ok d' => rfl
  | error cause => rfl

theorem join_run_eq_ok {w : Widget} {d d' : Draft} :
    (join w).run d = .ok ((), d') ↔ d.attach w = .ok d' := by
  rw [join_run]
  cases d.attach w with
  | ok attached => simp [Except.map]
  | error cause => simp [Except.map]

theorem close_run {d : Draft} {w : Widget} {outer : List Widget}
    (hopened : d.opened = w :: outer) : l.close.run d =
      (l.completed d.text w >>= join).run { d with opened := outer, text := "" } := by
  rw [close, Reading.get_bind_run, hopened]
  dsimp only
  rw [Reading.bind_run]
  cases w with
  | leaf style kind =>
      cases kind with
      | text box =>
          simp only [completed, bind_assoc, pure_bind]
          rfl
      | button button =>
          simp only [completed, bind_assoc, pure_bind]
          rfl
      | _ =>
          simp only [completed, pure_bind]
          rfl
  | block style children =>
      simp only [completed, pure_bind]
      rfl
  | list style children rows =>
      cases children with
      | nil => rfl
      | cons first rest =>
          simp only [completed, pure_bind]
          rfl

theorem close_run_of_nothing {d : Draft} (hopened : d.opened = []) :
    l.close.run d = .ok ((), d) := by
  rw [close, Reading.get_bind_run, hopened]
  rfl

/-- What the end of an element does to a draft. -/
inductive Finished (l : Loading) (tag : String) (d : Draft) : Draft → Prop where
  | nothing (htag : tag = "include" ∨ tag = "skin" ∨ tag = "variable" ∨ tag = "font" ∨
      tag ≠ "display" ∧ d.opened = []) : Finished l tag d d
  | display (htag : tag = "display") : Finished l tag d d.finishDisplay
  | widget {w finished : Widget} {outer : List Widget} {between d' : Draft}
      (htag : tag ≠ "display") (hopened : d.opened = w :: outer)
      (hcompleted : (l.completed d.text w).run { d with opened := outer, text := "" } =
        .ok (finished, between))
      (hattach : between.attach finished = .ok d') : Finished l tag d d'

theorem finished_of_finish {tag : String} {d d' : Draft}
    (h : (l.finish tag).run d = .ok ((), d')) : Finished l tag d d' := by
  unfold finish at h
  split_ifs at h with hnothing hdisplay
  · cases h
    refine .nothing ?_
    tauto
  · cases h
    exact .display hdisplay
  · cases hopened : d.opened with
    | nil =>
        rw [close_run_of_nothing hopened] at h
        cases h
        exact .nothing (by simp [hdisplay, hopened])
    | cons w outer =>
        rw [close_run hopened] at h
        obtain ⟨finished, between, hcompleted, hjoin⟩ := Reading.bind_run_eq_ok.mp h
        exact .widget hdisplay hopened hcompleted (join_run_eq_ok.mp hjoin)

theorem start_isPlain {included : Bool} {e : Element} {d : Draft} {cause : LoadError}
    (h : (l.start included e).run d = .error cause) : cause.IsPlain := by
  rw [start, Reading.get_bind_run] at h
  split_ifs at h
  · cases h
    trivial
  · exact (e.readHeader_made l).apart.isPlain _ _ h
  · cases h
    trivial
  · cases h
    trivial
  · exact (e.declareVariable_made l).apart.isPlain _ _ h
  · exact (e.declareFont_made l).apart.isPlain _ _ h
  · rcases Reading.bind_run_eq_error.mp h with hid | ⟨id, between, -, hset⟩
    · exact (e.required_made l "id").apart.isPlain _ _ hid
    · cases hset
  · cases h
    trivial
  · rcases Reading.bind_run_eq_error.mp h with hwidget | ⟨w, between, -, hpush⟩
    · exact (e.widget_apart l).isPlain _ _ hwidget
    · cases hpush

theorem finish_isPlain {tag : String} {d : Draft} {cause : LoadError}
    (h : (l.finish tag).run d = .error cause) : cause.IsPlain := by
  unfold finish at h
  split_ifs at h
  · cases h
  · cases h
  · cases hopened : d.opened with
    | nil =>
        rw [close_run_of_nothing hopened] at h
        cases h
    | cons w outer =>
        rw [close_run hopened] at h
        rcases Reading.bind_run_eq_error.mp h with hcompleted | ⟨finished, between, -, hjoin⟩
        · exact (l.completed_apart _ w).isPlain _ _ hcompleted
        · rw [join_run] at hjoin
          cases hattach : between.attach finished with
          | error other =>
              rw [hattach] at hjoin
              cases hjoin
              exact Draft.attach_isPlain hattach
          | ok attached =>
              rw [hattach] at hjoin
              cases hjoin

/-- An event that starts no include element is refused for plain reasons only. -/
theorem handle_isPlain {included : Bool} {event : Event} {d : Draft} {cause : LoadError}
    (h : (l.handle included event).run d = .error cause) : cause.IsPlain := by
  cases event with
  | text content line => cases h
  | start tag attributes line => exact start_isPlain h
  | finish tag line => exact finish_isPlain h

end Loading

namespace Skin

variable {env : Environment} {options : LoadOptions} {skin : Skin}

/-- A skin that is loaded from a file is that of the draft which the file leads to. -/
theorem load_eq_ok_iff {path : FilePath} :
    let s := Source.ofPath path ⟨""⟩
    let l : Loading := { env, base := s.directory, options }
    Skin.load env options path = .ok skin ↔
      ∃ d, l.ReadsFile options.includeDepth s l.blank d ∧ ofDraft l d = .ok skin := by
  intro s l
  change ofParse l (Markup.parseFile l.env.skinFile l.env.host.charset
    (l.receive options.includeDepth s.directory) s.path l.blank) = .ok skin ↔ _
  simp only [← Loading.parseFile_eq_none_iff]
  obtain ⟨d, failure⟩ := Markup.parseFile l.env.skinFile l.env.host.charset
    (l.receive options.includeDepth s.directory) s.path l.blank
  cases failure with
  | none => simp [ofParse]
  | some cause => simp [ofParse]

/-- A skin that is loaded from memory is that of the draft which the bytes lead to. -/
theorem loadBytes_eq_ok_iff {base : FilePath} {bytes : List UInt8} :
    let l : Loading := { env, base, options }
    Skin.loadBytes env options base bytes = .ok skin ↔
      ∃ d, l.ReadsBytes options.includeDepth base bytes l.blank d ∧ ofDraft l d = .ok skin := by
  intro l
  change ofParse l (Markup.parse l.env.host.charset (l.receive options.includeDepth base) bytes
    l.blank) = .ok skin ↔ _
  simp only [← Loading.parse_eq_none_iff]
  obtain ⟨d, failure⟩ := Markup.parse l.env.host.charset
    (l.receive options.includeDepth base) bytes l.blank
  cases failure with
  | none => simp [ofParse]
  | some cause => simp [ofParse]

end Skin

end PanelSkin
