import PanelSkin.Proofs.Markup.Nesting
import PanelSkin.Proofs.Text.Pieces

/-!
The lines that events and errors are reported on. One step counts the line feed it reads and
reports on the line before it; hence the line of a scan is that of its start and the line feeds
read since, and every event and every error carries the number of line feeds in front of the
character that completes it. In the bytes of a document a line feed is always a character of its
own, so these are the line feeds among the bytes in front.
-/

namespace PanelSkin.Markup

/-- What completes an event: the bracket that closes its tag; for a text the next bracket that
opens a tag, or the end of the document. -/
def Event.IsCompletedBy : Event → Option Char → Prop
  | .start _ _ _, next => next = some '>'
  | .finish _ _, next => next = some '>'
  | .text _ _, next => next = some '<' ∨ next = none

namespace Scanner

variable {charset : Charset}

/-- A scan in state `t` goes on with the first of the remaining characters, or ends where none is
left, and completes `events` with that. -/
def CompletesAt (charset : Charset) (t : Scanner) : List Char → List Event → Prop
  | [], events => t.finish charset = .ok events
  | c :: _, events => ∃ next, t.step charset c = .ok (next, events)

theorem exists_eq_text_of_mem_flush {line : Nat} {pending : List Char} {event : Event}
    (hevent : event ∈ flush charset line pending) : ∃ content, event = .text content line := by
  unfold flush at hevent
  split at hevent
  · cases hevent
  · exact ⟨_, List.mem_singleton.mp hevent⟩

private theorem closeElement_events {s : Scanner} {name : String} {next : Step}
    (h : s.closeElement name = .ok next) : next.events = [.finish name s.line] := by
  unfold closeElement at h
  split at h
  · cases h
  · split_ifs at h
    cases h
    rfl

/-- A character completes events on its own line, and is the one they end with. -/
theorem advance_events {s : Scanner} {c : Char} {next : Step} (h : s.advance charset c = .ok next) :
    ∀ event ∈ next.events, event.line = s.line ∧ event.IsCompletedBy (some c) := by
  unfold advance at h
  cases hmode : s.mode <;> simp only [hmode] at h
  case content pending =>
    split_ifs at h with hc
    · cases h
      intro event hevent
      obtain ⟨content, rfl⟩ := exists_eq_text_of_mem_flush hevent
      exact ⟨rfl, Or.inl (congrArg some hc)⟩
    · cases h
      exact List.forall_mem_nil _
  case closeName name =>
    split_ifs at h with _ _ hc
    · cases h; exact List.forall_mem_nil _
    · cases h; exact List.forall_mem_nil _
    · rw [closeElement_events h]
      exact List.forall_mem_singleton.mpr ⟨rfl, congrArg some hc⟩
  case afterCloseName name =>
    split_ifs at h with hc
    · rw [closeElement_events h]
      exact List.forall_mem_singleton.mpr ⟨rfl, congrArg some hc⟩
    · cases h; exact List.forall_mem_nil _
  -- in every other mode the step is written out, and its events with it
  all_goals
    split_ifs at h <;> cases h <;>
      simp_all [openElement, emptyElement, Event.IsCompletedBy, Event.line]

/-- A step reports on the line it begins on, and counts the line feed it reads. -/
theorem step_line {s next : Scanner} {c : Char} {events : List Event}
    (h : s.step charset c = .ok (next, events)) :
    next.line = (if c = '\n' then s.line + 1 else s.line) ∧
      ∀ event ∈ events, event.line = s.line ∧ event.IsCompletedBy (some c) := by
  unfold step at h
  split at h
  · cases h
  · rename_i outcome hadvance
    cases h
    exact ⟨rfl, advance_events hadvance⟩

/-- What is read moves a scan on by the line feeds in it. -/
theorem Reads.line_eq {s t : Scanner} {text : List Char} {events : List Event}
    (h : Reads charset s text events t) : t.line = s.line + text.count '\n' := by
  induction h with
  | nil _ => rfl
  | cons hstep _ ih => rw [ih, (step_line hstep).1, line_of_cons]

theorem CompletesAt.line_eq {t : Scanner} {rest : List Char} {events : List Event}
    (h : t.CompletesAt charset rest events) :
    ∀ event ∈ events, event.line = t.line ∧ event.IsCompletedBy rest.head? := by
  cases rest with
  | cons c rest =>
      obtain ⟨next, hstep⟩ := h
      exact (step_line hstep).2
  | nil =>
      have hfinish : t.finish charset = .ok events := h
      unfold finish at hfinish
      split at hfinish
      · split at hfinish
        · cases hfinish
        · cases hfinish
          intro event hevent
          obtain ⟨content, rfl⟩ := exists_eq_text_of_mem_flush hevent
          exact ⟨rfl, Or.inr rfl⟩
      · cases hfinish

/-- In a text, `event` is completed between `before` and `after`: what is read before completes
events of `earlier`, and the next character, or the end of the text, completes those that are left
of `earlier` and then `event`. -/
def Completes (charset : Charset) (s : Scanner) (earlier : List Event) (event : Event)
    (before after : List Char) : Prop :=
  ∃ done more t, Reads charset s before done t ∧ t.CompletesAt charset after more ∧
    done <+: earlier ∧ earlier ++ [event] <+: done ++ more

theorem Completes.line_eq {s : Scanner} {earlier : List Event} {event : Event}
    {before after : List Char} (h : Completes charset s earlier event before after) :
    event.line = s.line + before.count '\n' ∧ event.IsCompletedBy after.head? := by
  obtain ⟨done, more, t, hreads, hcompletes, ⟨left, rfl⟩, hevent⟩ := h
  rw [List.append_assoc, List.prefix_append_right_inj] at hevent
  obtain ⟨hline, hnext⟩ := hcompletes.line_eq event (hevent.subset (by simp))
  exact ⟨hline.trans hreads.line_eq, hnext⟩

/-- What is completed further on is so too with one more character, and its events, in front. -/
theorem Completes.behind {s next : Scanner} {c : Char} {first left : List Event} {event : Event}
    {before after : List Char} (hstep : s.step charset c = .ok (next, first))
    (h : Completes charset next left event before after) :
    Completes charset s (first ++ left) event (c :: before) after := by
  obtain ⟨done, more, t, hreads, hcompletes, hdone, hevent⟩ := h
  refine ⟨first ++ done, more, t, .cons hstep hreads, hcompletes, ?_, ?_⟩
  · exact (List.prefix_append_right_inj first).mpr hdone
  · rw [List.append_assoc, List.append_assoc]
    exact (List.prefix_append_right_inj first).mpr hevent

/-- Every event of a scan is completed somewhere in its text. -/
theorem exists_completes (charset : Charset) (s : Scanner) (text : List Char)
    {earlier : List Event} {event : Event}
    (h : earlier ++ [event] <+: (s.run charset text).events) :
    ∃ before after, text = before ++ after ∧ Completes charset s earlier event before after := by
  induction text generalizing s earlier with
  | nil =>
      cases hfinish : s.finish charset with
      | ok events =>
          rw [run, hfinish] at h
          exact ⟨[], [], rfl, [], events, s, .nil s, hfinish, List.nil_prefix, h⟩
      | error cause =>
          rw [run, hfinish] at h
          cases earlier <;> cases List.prefix_nil.mp h
  | cons c text ih =>
      cases hstep : s.step charset c with
      | error cause =>
          rw [run, hstep] at h
          cases earlier <;> cases List.prefix_nil.mp h
      | ok outcome =>
          obtain ⟨next, first⟩ := outcome
          have hrun : earlier ++ [event] <+: first ++ (next.run charset text).events := by
            rw [run, hstep] at h
            exact h
          by_cases hlength : earlier.length < first.length
          · -- the character itself completes the event
            refine ⟨[], c :: text, rfl, [], first, s, .nil s, ⟨next, hstep⟩, List.nil_prefix, ?_⟩
            exact List.prefix_of_prefix_length_le hrun (List.prefix_append _ _) (by simpa)
          · obtain ⟨left, rfl⟩ : first <+: earlier :=
              List.prefix_of_prefix_length_le (List.prefix_append _ _)
                ((List.prefix_append _ _).trans hrun) (by omega)
            rw [List.append_assoc, List.prefix_append_right_inj] at hrun
            obtain ⟨before, after, rfl, hcompletes⟩ := ih next hrun
            exact ⟨c :: before, after, rfl, hcompletes.behind hstep⟩

end Scanner

open Scanner

variable {σ ε : Type}

/-- In the bytes of a document there are as many line feeds as in its text. -/
theorem count_line_feeds (bytes : List UInt8) :
    (Text.decodeBytes bytes).count '\n' = bytes.count 0x0A :=
  Text.count_decodeBytes_of_ascii (b := 0x0A) (by decide) bytes

/-- An event handed over is completed somewhere in the text of the document. -/
theorem exists_completes_of_log (charset : Charset) (receive : Receiver σ ε) (bytes : List UInt8)
    (state : σ) {earlier later : List Event} {event : Event}
    (h : (parseLogged charset receive bytes state).1 = earlier ++ event :: later) :
    ∃ before after, Text.decodeBytes bytes = before ++ after ∧
      Completes charset {} earlier event before after := by
  have hscan : earlier ++ [event] <+: (scan charset (Text.decodeBytes bytes)).events := by
    have hlog : earlier ++ [event] <+: (parseLogged charset receive bytes state).1 :=
      ⟨later, by rw [h, List.append_assoc, List.singleton_append]⟩
    have hfound := log_prefix charset receive bytes state
    exact hlog.trans hfound
  exact exists_completes charset {} _ hscan

theorem exists_completed_behind (charset : Charset) (receive : Receiver σ ε) (bytes : List UInt8)
    (state : σ) {earlier later : List Event} {event : Event}
    (h : (parseLogged charset receive bytes state).1 = earlier ++ event :: later) :
    ∃ front back, Text.Parts bytes front back ∧
      Completes charset {} earlier event (Text.decodeBytes front) (Text.decodeBytes back) ∧
      event.IsCompletedBy (Text.decodeBytes back).head? ∧ event.line = 1 + front.count 0x0A := by
  obtain ⟨before, after, htext, hcompletes⟩ :=
    exists_completes_of_log charset receive bytes state h
  obtain ⟨front, back, hparts, rfl, rfl⟩ := Text.exists_parts_of_decodeBytes htext
  obtain ⟨hline, hnext⟩ := hcompletes.line_eq
  exact ⟨front, back, hparts, hcompletes, hnext, by rw [hline, count_line_feeds]⟩

theorem exists_failed_behind (charset : Charset) (receive : Receiver σ ε) (bytes : List UInt8)
    (state : σ) {line : Nat} {cause : SyntaxError}
    (h : (parse charset receive bytes state).2 = some (.malformed line cause)) :
    ∃ front back t, Text.Parts bytes front back ∧
      Reads charset {} (Text.decodeBytes front) (parseLogged charset receive bytes state).1 t ∧
      t.FailsAt charset (Text.decodeBytes back) cause ∧ line = 1 + front.count 0x0A := by
  obtain ⟨before, after, t, htext, hreads, hfails, rfl, -⟩ :=
    log_of_malformed charset receive bytes state line cause h
  obtain ⟨front, back, hparts, rfl, rfl⟩ := Text.exists_parts_of_decodeBytes htext
  exact ⟨front, back, t, hparts, hreads, hfails, by rw [hreads.line_eq, count_line_feeds]⟩

end PanelSkin.Markup
