import PanelSkin.Proofs.Markup.Logging
import PanelSkin.Proofs.Markup.Reading

/-!
The start and finish events of every reading match like brackets. The scanner's list of open
elements is the list of tags which the events completed so far leave open; one step keeps the
two equal, hence a run does. What a receiver is handed is a part of these events from the first
one on, and stops with the first error, whether the document or the receiver made it.
-/

namespace PanelSkin.Markup

/-- Event sequences in which every element that starts also finishes, around whole elements. -/
inductive Nested : List Event → Prop where
  | nil : Nested []
  | text (content : String) (line : Nat) {rest : List Event} (hrest : Nested rest) :
      Nested (.text content line :: rest)
  | element (tag : String) (attributes : Attributes) (opened closed : Nat)
      {inner rest : List Event} (hinner : Nested inner) (hrest : Nested rest) :
      Nested (.start tag attributes opened :: inner ++ .finish tag closed :: rest)

/-- The tags left open by events, innermost first, if `tags` were open before; none if an
element finishes that is not the innermost open one. -/
def openTags : List String → List Event → Option (List String)
  | tags, [] => some tags
  | tags, .start tag _ _ :: rest => openTags (tag :: tags) rest
  | tags, .text _ _ :: rest => openTags tags rest
  | [], .finish _ _ :: _ => none
  | innermost :: outer, .finish tag _ :: rest =>
    if innermost = tag then openTags outer rest else none

theorem openTags_append (tags : List String) (events more : List Event) :
    openTags tags (events ++ more) =
      (openTags tags events).bind fun left => openTags left more := by
  fun_induction openTags tags events with
  | case1 => rfl
  | case2 tags tag attributes line rest ih => exact ih
  | case3 tags content line rest ih => exact ih
  | case4 => rfl
  | case5 outer tag line rest ih =>
      rw [List.cons_append, openTags, if_pos rfl]
      exact ih
  | case6 innermost outer tag line rest hne =>
      rw [List.cons_append, openTags, if_neg hne]
      rfl

theorem openTags_of_nested {events : List Event} (hnested : Nested events)
    (tags : List String) : openTags tags events = some tags := by
  induction hnested generalizing tags with
  | nil => rfl
  | text content line _ ih => exact ih tags
  | element tag attributes opened closed _ _ ihinner ihrest =>
      rw [List.cons_append, openTags, openTags_append, ihinner (tag :: tags)]
      simp only [Option.bind_some, openTags, if_true]
      exact ihrest tags

/-- Finishing what is open, from the innermost tag on, leaves nothing open. -/
theorem openTags_finishing (tags : List String) :
    openTags tags (tags.map fun tag => .finish tag 0) = some [] := by
  induction tags with
  | nil => rfl
  | cons tag tags ih =>
      rw [List.map_cons, openTags, if_pos rfl]
      exact ih

/-- Events that finish all of `tags`, each after properly nested ones, and leave nothing
open. -/
def Closes : List String → List Event → Prop
  | [], events => Nested events
  | tag :: outer, events =>
    ∃ inner line rest, events = inner ++ .finish tag line :: rest ∧ Nested inner ∧
      Closes outer rest

private theorem Closes.text {tags : List String} {events : List Event}
    (h : Closes tags events) (content : String) (line : Nat) :
    Closes tags (.text content line :: events) := by
  cases tags with
  | nil => exact Nested.text content line h
  | cons tag outer =>
      obtain ⟨inner, closed, rest, rfl, hinner, hrest⟩ := h
      exact ⟨.text content line :: inner, closed, rest, rfl, .text content line hinner, hrest⟩

private theorem Closes.element {tags : List String} {inner rest : List Event}
    (hinner : Nested inner) (h : Closes tags rest) (tag : String) (attributes : Attributes)
    (opened closed : Nat) :
    Closes tags (.start tag attributes opened :: (inner ++ .finish tag closed :: rest)) := by
  cases tags with
  | nil => exact Nested.element tag attributes opened closed hinner h
  | cons next outer =>
      obtain ⟨before, line, after, rfl, hbefore, hafter⟩ := h
      refine ⟨.start tag attributes opened :: inner ++ .finish tag closed :: before, line,
        after, ?_, .element tag attributes opened closed hinner hbefore, hafter⟩
      simp only [List.cons_append, List.append_assoc]

theorem closes_of_openTags {tags : List String} {events : List Event}
    (h : openTags tags events = some []) : Closes tags events := by
  fun_induction openTags tags events with
  | case1 tags =>
      cases h
      exact .nil
  | case2 tags tag attributes line rest ih =>
      obtain ⟨inner, closed, after, rfl, hinner, hafter⟩ := ih h
      exact Closes.element hinner hafter tag attributes line closed
  | case3 tags content line rest ih => exact (ih h).text content line
  | case4 => cases h
  | case5 outer tag line rest ih => exact ⟨[], line, rest, rfl, .nil, ih h⟩
  | case6 => cases h

/-- Counting open tags decides whether events are properly nested. -/
theorem openTags_eq_nil_iff_nested (events : List Event) :
    openTags [] events = some [] ↔ Nested events := by
  constructor
  · intro h
    exact closes_of_openTags h
  · intro h
    exact openTags_of_nested h []

/-- Events with a defined nesting can be continued to a properly nested sequence, and so can
every part of them from the first event on. -/
theorem exists_nested_of_prefix {events moment : List Event} {left : List String}
    (h : openTags [] events = some left) (hmoment : moment <+: events) :
    ∃ rest, Nested (moment ++ rest) := by
  obtain ⟨later, rfl⟩ := hmoment
  rw [openTags_append] at h
  obtain ⟨tags, htags, -⟩ := Option.bind_eq_some_iff.mp h
  refine ⟨tags.map fun tag => .finish tag 0, ?_⟩
  rw [← openTags_eq_nil_iff_nested, openTags_append, htags]
  exact openTags_finishing tags

/-- Where the nesting is defined, a finish event names the innermost open element. -/
theorem innermost_of_finish {before after : List Event} {tag : String} {line : Nat}
    {left : List String} (h : openTags [] (before ++ .finish tag line :: after) = some left) :
    ∃ outer, openTags [] before = some (tag :: outer) := by
  rw [openTags_append] at h
  obtain ⟨tags, htags, hrest⟩ := Option.bind_eq_some_iff.mp h
  cases tags with
  | nil => cases hrest
  | cons innermost outer =>
      by_cases hname : innermost = tag
      · exact ⟨outer, hname ▸ htags⟩
      · rw [openTags, if_neg hname] at hrest
        cases hrest

/-! What is open in the scanner is what the events leave open. -/

theorem openTags_flush (charset : Charset) (line : Nat) (pending : List Char)
    (tags : List String) : openTags tags (Scanner.flush charset line pending) = some tags := by
  unfold Scanner.flush
  split <;> rfl

theorem Scanner.Effect.openTags_events {charset : Charset} {s : Scanner} {next : Scanner.Step}
    (h : Effect charset s next) : openTags s.nesting next.events = some next.nesting := by
  cases h with
  | silent mode => rfl
  | textEnds pending => exact openTags_flush charset s.line pending s.nesting
  | opens tag => rfl
  | opensAndCloses tag => simp only [emptyElement, openTags, if_true]
  | closes name outer hnesting => simp only [hnesting, openTags, if_true]

theorem openTags_step {charset : Charset} {s next : Scanner} {c : Char} {events : List Event}
    (h : s.step charset c = .ok (next, events)) :
    openTags s.nesting events = some next.nesting := by
  unfold Scanner.step at h
  split at h
  · cases h
  · rename_i outcome hadvance
    cases h
    exact (Scanner.advance_effect s c outcome hadvance).openTags_events

/-- A run keeps the scanner's open elements equal to what its events leave open. -/
theorem openTags_reads {charset : Charset} {s t : Scanner} {text : List Char}
    {events : List Event} (h : Scanner.Reads charset s text events t) :
    openTags s.nesting events = some t.nesting := by
  induction h with
  | nil _ => rfl
  | cons hstep _ ih =>
      rw [openTags_append, openTags_step hstep, Option.bind_some]
      exact ih

theorem openTags_finish {charset : Charset} {s : Scanner} {last : List Event}
    (h : s.finish charset = .ok last) : openTags s.nesting last = some [] := by
  unfold Scanner.finish at h
  split at h
  · split at h
    · cases h
    · rename_i hnesting
      cases h
      rw [hnesting]
      exact openTags_flush charset _ _ []
  · cases h

/-- The events of a document have a nesting, and leave nothing open unless it fails. -/
theorem openTags_scan (charset : Charset) (document : List Char) :
    ∃ left, openTags [] (scan charset document).events = some left ∧
      ((scan charset document).failure = none → left = []) := by
  obtain ⟨before, rest, events, t, -, hreads, hend⟩ :=
    Scanner.run_ends charset {} document
  have hopen : openTags [] events = some t.nesting := openTags_reads hreads
  rcases hend with ⟨last, -, hfinish, hrun⟩ | ⟨cause, -, hrun⟩
  · refine ⟨[], ?_, fun _ => rfl⟩
    rw [scan, hrun, openTags_append, hopen, Option.bind_some]
    exact openTags_finish hfinish
  · refine ⟨t.nesting, ?_, ?_⟩
    · rw [scan, hrun]
      exact hopen
    · rw [scan, hrun]
      intro hnone
      cases hnone

variable {σ ε : Type}

/-- Nothing but events of the scan is handed over, from the first one on. -/
theorem log_prefix (charset : Charset) (receive : Receiver σ ε) (bytes : List UInt8)
    (state : σ) :
    (parseLogged charset receive bytes state).1 <+:
      (scan charset (Text.decodeBytes bytes)).events := by
  rcases parseLogged_log charset receive bytes state with
    ⟨hlog, -, -⟩ | ⟨accepted, event, rest, _, hlog, hevents, -, -, -⟩
  · rw [hlog]
  · rw [hlog, hevents]
    exact ⟨rest, by simp⟩

theorem openTags_log (charset : Charset) (receive : Receiver σ ε) (bytes : List UInt8)
    (state : σ) :
    ∃ left, openTags [] (parseLogged charset receive bytes state).1 = some left := by
  obtain ⟨later, hlater⟩ := log_prefix charset receive bytes state
  obtain ⟨left, hopen, -⟩ := openTags_scan charset (Text.decodeBytes bytes)
  rw [← hlater, openTags_append] at hopen
  obtain ⟨tags, htags, -⟩ := Option.bind_eq_some_iff.mp hopen
  exact ⟨tags, htags⟩

/-- The events handed over nest properly if the document is read to its end. -/
theorem nested_log_of_success (charset : Charset) (receive : Receiver σ ε)
    (bytes : List UInt8) (state : σ)
    (hsuccess : (parse charset receive bytes state).2 = none) :
    Nested (parseLogged charset receive bytes state).1 := by
  obtain ⟨left, hopen, hleft⟩ := openTags_scan charset (Text.decodeBytes bytes)
  rcases parseLogged_log charset receive bytes state with
    ⟨hlog, -, hfailure⟩ | ⟨_, _, _, _, -, -, -, -, hfailure⟩
  · rw [hsuccess] at hfailure
    have hnone := Option.map_eq_none_iff.mp hfailure.symm
    rw [hlog, ← openTags_eq_nil_iff_nested, hopen, hleft hnone]
  · rw [hsuccess] at hfailure
    cases hfailure

/-- After a refusal nothing more is handed over: the refused event ends the log. -/
theorem log_of_refused (charset : Charset) (receive : Receiver σ ε) (bytes : List UInt8)
    (state : σ) (line : Nat) (cause : ε)
    (hrefused : (parse charset receive bytes state).2 = some (.refused line cause)) :
    ∃ accepted event, (parseLogged charset receive bytes state).1 = accepted ++ [event] ∧
      event.line = line ∧ Accepts receive state accepted (parse charset receive bytes state).1 ∧
      receive event (parse charset receive bytes state).1 = .error cause := by
  rcases parseLogged_log charset receive bytes state with
    ⟨-, -, hfailure⟩ | ⟨accepted, event, _, refusal, hlog, -, haccepts, hevent, hfailure⟩
  · rw [hrefused] at hfailure
    obtain ⟨_, _, hmalformed⟩ := Option.map_eq_some_iff.mp hfailure.symm
    cases hmalformed
  · rw [hrefused] at hfailure
    cases hfailure
    exact ⟨accepted, event, hlog, rfl, haccepts, hevent⟩

/-- After an error of the document nothing more is handed over: the log holds what the
characters before the error complete. -/
theorem log_of_malformed (charset : Charset) (receive : Receiver σ ε) (bytes : List UInt8)
    (state : σ) (line : Nat) (cause : SyntaxError)
    (hmalformed : (parse charset receive bytes state).2 = some (.malformed line cause)) :
    ∃ before rest t, Text.decodeBytes bytes = before ++ rest ∧
      Scanner.Reads charset {} before (parseLogged charset receive bytes state).1 t ∧
      t.FailsAt charset rest cause ∧ t.line = line ∧
      Accepts receive state (parseLogged charset receive bytes state).1
        (parse charset receive bytes state).1 := by
  obtain ⟨before, rest, events, t, htext, hreads, hend⟩ :=
    Scanner.run_ends charset {} (Text.decodeBytes bytes)
  rcases parseLogged_log charset receive bytes state with
    ⟨hlog, haccepts, hfailure⟩ | ⟨_, _, _, _, -, -, -, -, hfailure⟩
  · rw [hmalformed] at hfailure
    rcases hend with ⟨last, -, -, hrun⟩ | ⟨found, hfails, hrun⟩
    · rw [scan, hrun] at hfailure
      cases hfailure
    · rw [scan, hrun] at hfailure hlog haccepts
      cases hfailure
      rw [hlog]
      exact ⟨before, rest, t, htext, hreads, hfails, rfl, haccepts⟩
  · rw [hmalformed] at hfailure
    cases hfailure

/-- For every input, charset and receiver, what the receiver has been handed at any moment can
be continued to a properly nested sequence, and every finish event names the innermost open
element. Reading that succeeds has finished every element. A refused event is the last one
handed over; after an error of the document only the events completed before it were. -/
theorem delivered_events_nest (charset : Charset) (receive : Receiver σ ε)
    (bytes : List UInt8) (state : σ) :
    let log := (parseLogged charset receive bytes state).1
    let (final, failure) := parse charset receive bytes state
    (parseLogged charset receive bytes state).2 = (final, failure) ∧
    (∀ moment, moment <+: log → ∃ rest, Nested (moment ++ rest)) ∧
    (∀ before tag line after, log = before ++ .finish tag line :: after →
      ∃ outer, openTags [] before = some (tag :: outer)) ∧
    (failure = none → Nested log) ∧
    (∀ line cause, failure = some (.refused line cause) →
      ∃ accepted event, log = accepted ++ [event] ∧ event.line = line ∧
        Accepts receive state accepted final ∧ receive event final = .error cause) ∧
    ∀ line cause, failure = some (.malformed line cause) →
      ∃ before rest t, Text.decodeBytes bytes = before ++ rest ∧
        Scanner.Reads charset {} before log t ∧ t.FailsAt charset rest cause ∧
        t.line = line ∧ Accepts receive state log final := by
  obtain ⟨left, hopen⟩ := openTags_log charset receive bytes state
  refine ⟨parseLogged_outcome charset receive bytes state, ?_, ?_, ?_, ?_, ?_⟩
  · intro moment hmoment
    exact exists_nested_of_prefix hopen hmoment
  · intro before tag line after hlog
    rw [hlog] at hopen
    exact innermost_of_finish hopen
  · exact nested_log_of_success charset receive bytes state
  · intro line cause hfailure
    exact log_of_refused charset receive bytes state line cause hfailure
  · intro line cause hfailure
    exact log_of_malformed charset receive bytes state line cause hfailure

end PanelSkin.Markup
