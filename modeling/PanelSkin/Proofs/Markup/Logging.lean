import Mathlib.Tactic
import PanelSkin.Markup.Delivery

/-!
Receivers that keep a log. Reading with a logged receiver shows which events were handed over,
the one that was refused included, and gives the same outcome as reading without the log.
-/

namespace PanelSkin.Markup

variable {σ ε : Type}

/-- A receiver that also keeps every event it is handed, before it takes or refuses it. -/
def Receiver.logged (receive : Receiver σ ε) : Receiver (σ × List Event) (ε × List Event) :=
  fun event (state, log) =>
    match receive event state with
    | .ok next => .ok (next, log ++ [event])
    | .error cause => .error (cause, log ++ [event])

/-- The log, and the outcome without it. -/
def splitLog : (σ × List Event) × Option (ParseError (ε × List Event)) →
    List Event × σ × Option (ParseError ε)
  | ((state, _), some (.refused line (cause, log))) => (log, state, some (.refused line cause))
  | ((state, log), some (.malformed line cause)) => (log, state, some (.malformed line cause))
  | ((state, log), some (.unreadable path cause)) => (log, state, some (.unreadable path cause))
  | ((state, log), none) => (log, state, none)

/-- Reads a document with a log: the events handed to the receiver, and the outcome. -/
def parseLogged (charset : Charset) (receive : Receiver σ ε) (bytes : List UInt8) (state : σ) :
    List Event × σ × Option (ParseError ε) :=
  splitLog (parse charset receive.logged bytes (state, []))

/-- The events a receiver takes in turn, and the state it is in after them. -/
def Accepts (receive : Receiver σ ε) (state : σ) (events : List Event) (final : σ) : Prop :=
  events.foldlM (fun state event => receive event state) state = .ok final

theorem Accepts.cons {receive : Receiver σ ε} {state next final : σ} {event : Event}
    {events : List Event} (hfirst : receive event state = .ok next)
    (hrest : Accepts receive next events final) :
    Accepts receive state (event :: events) final := by
  unfold Accepts at hrest ⊢
  rw [List.foldlM_cons, hfirst]
  exact hrest

theorem deliver_cons_of_ok {receive : Receiver σ ε} {event : Event} {state next : σ}
    (htaken : receive event state = .ok next) (events : List Event) :
    deliver receive (event :: events) state = deliver receive events next := by
  simp only [deliver, htaken]

theorem deliver_cons_of_error {receive : Receiver σ ε} {event : Event} {state : σ} {cause : ε}
    (hrefused : receive event state = .error cause) (events : List Event) :
    deliver receive (event :: events) state = (state, some (event.line, cause)) := by
  simp only [deliver, hrefused]

theorem logged_of_ok {receive : Receiver σ ε} {event : Event} {state next : σ}
    (htaken : receive event state = .ok next) (log : List Event) :
    receive.logged event (state, log) = .ok (next, log ++ [event]) := by
  simp only [Receiver.logged, htaken]

theorem logged_of_error {receive : Receiver σ ε} {event : Event} {state : σ} {cause : ε}
    (hrefused : receive event state = .error cause) (log : List Event) :
    receive.logged event (state, log) = .error (cause, log ++ [event]) := by
  simp only [Receiver.logged, hrefused]

/-- Delivery hands over either all events or those up to the first refusal. -/
theorem deliver_logged (receive : Receiver σ ε) (events : List Event) (state : σ)
    (log : List Event) :
    (∃ final, Accepts receive state events final ∧
        deliver receive events state = (final, none) ∧
        deliver receive.logged events (state, log) = ((final, log ++ events), none)) ∨
      ∃ accepted event rest last cause, events = accepted ++ event :: rest ∧
        Accepts receive state accepted last ∧ receive event last = .error cause ∧
        deliver receive events state = (last, some (event.line, cause)) ∧
        deliver receive.logged events (state, log) =
          ((last, log ++ accepted),
            some (event.line, (cause, log ++ accepted ++ [event]))) := by
  induction events generalizing state log with
  | nil => exact Or.inl ⟨state, rfl, rfl, by rw [List.append_nil]; rfl⟩
  | cons event events ih =>
      cases hreceive : receive event state with
      | error cause =>
          refine Or.inr ⟨[], event, events, state, cause, rfl, rfl, hreceive,
            deliver_cons_of_error hreceive events, ?_⟩
          rw [deliver_cons_of_error (logged_of_error hreceive log), List.append_nil]
      | ok next =>
          rw [deliver_cons_of_ok hreceive, deliver_cons_of_ok (logged_of_ok hreceive log)]
          rcases ih next (log ++ [event]) with ⟨final, haccepts, hplain, hlogged⟩ |
            ⟨accepted, refused, rest, last, cause, rfl, haccepts, hrefused, hplain, hlogged⟩
          · refine Or.inl ⟨final, haccepts.cons hreceive, hplain, ?_⟩
            rw [hlogged, List.append_assoc, List.singleton_append]
          · refine Or.inr ⟨event :: accepted, refused, rest, last, cause, rfl,
              haccepts.cons hreceive, hrefused, hplain, ?_⟩
            rw [hlogged, List.append_assoc log, List.singleton_append]

/-- The log does not change the outcome. -/
theorem parseLogged_outcome (charset : Charset) (receive : Receiver σ ε) (bytes : List UInt8)
    (state : σ) :
    (parseLogged charset receive bytes state).2 = parse charset receive bytes state := by
  unfold parseLogged parse Scan.deliver
  rcases deliver_logged receive (scan charset (Text.decodeBytes bytes)).events state [] with
    ⟨final, _, hplain, hlogged⟩ | ⟨_, _, _, last, cause, _, _, _, hplain, hlogged⟩
  · rw [hplain, hlogged]
    cases (scan charset (Text.decodeBytes bytes)).failure <;> rfl
  · rw [hplain, hlogged]
    rfl

/-- What the log holds: without a refusal all events the scan finds, all of them taken; after a
refusal the events up to the refused one, which is the last. -/
theorem parseLogged_log (charset : Charset) (receive : Receiver σ ε) (bytes : List UInt8)
    (state : σ) :
    ((parseLogged charset receive bytes state).1 =
        (scan charset (Text.decodeBytes bytes)).events ∧
      Accepts receive state (scan charset (Text.decodeBytes bytes)).events
        (parse charset receive bytes state).1 ∧
      (parse charset receive bytes state).2 =
        (scan charset (Text.decodeBytes bytes)).failure.map
          fun (line, cause) => .malformed line cause) ∨
    ∃ accepted event rest cause,
      (parseLogged charset receive bytes state).1 = accepted ++ [event] ∧
      (scan charset (Text.decodeBytes bytes)).events = accepted ++ event :: rest ∧
      Accepts receive state accepted (parse charset receive bytes state).1 ∧
      receive event (parse charset receive bytes state).1 = .error cause ∧
      (parse charset receive bytes state).2 = some (.refused event.line cause) := by
  unfold parseLogged parse Scan.deliver
  rcases deliver_logged receive (scan charset (Text.decodeBytes bytes)).events state [] with
    ⟨final, haccepts, hplain, hlogged⟩ |
      ⟨accepted, event, rest, last, cause, hevents, haccepts, hrefused, hplain, hlogged⟩
  · refine Or.inl ?_
    rw [hplain, hlogged]
    cases (scan charset (Text.decodeBytes bytes)).failure <;> exact ⟨rfl, haccepts, rfl⟩
  · refine Or.inr ⟨accepted, event, rest, cause, ?_⟩
    rw [hplain, hlogged]
    exact ⟨rfl, hevents, haccepts, hrefused, rfl⟩

end PanelSkin.Markup
