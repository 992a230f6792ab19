import PanelSkin.Proofs.Expr.SelfReference

/-!
How long the value of a variable stands. When it is asked for, a variable returns the value that it
stored last, as long as its policy allows, and evaluates otherwise. Whatever happened before, what
it stored last is found in the history of what has happened to it: the latest evaluation since its
value was dropped. An evaluation may take time. Whether one is due is asked at its beginning, and
the time from which the value counts is that of its end.
-/

namespace PanelSkin

variable {σ : Type}

namespace Policy

/-- A value that counts from some time stands: for good, for so long, or until the time of a tick or
a switch is later than it. -/
inductive Stands (clock : Clock) (time : Nat) : Policy → Prop where
  | once : Stands clock time .once
  | interval {span : Nat} (h : clock.now - time < span) : Stands clock time (.interval span)
  | tick (h : clock.tick ≤ time) : Stands clock time .tick
  | switch (h : clock.switch ≤ time) : Stands clock time .switch

theorem isFresh_iff {p : Policy} {clock : Clock} {time : Nat} :
    p.isFresh clock time = true ↔ p.Stands clock time := by
  constructor
  · intro hfresh
    cases p with
    | always => cases hfresh
    | once => exact .once
    | tick => exact .tick (of_decide_eq_true hfresh)
    | switch => exact .switch (of_decide_eq_true hfresh)
    | interval span => exact .interval (of_decide_eq_true hfresh)
  · intro hstands
    cases hstands with
    | once => rfl
    | tick h | switch h | interval h => exact decide_eq_true h

end Policy

namespace VariableDecl

/-- The value of the declaration at an index, and whether it is computed anew. It is asked for at
the time of one clock; the other, that of the lookups, is the time at which an evaluation ends. -/
def answer (start : Clock) (lookups : Lookups (Run σ)) (index : Nat) (v : VariableDecl) :
    Run σ (Value × Bool) := do
  match ((← get).cell index).kept.filter (v.policy.isFresh start ·.time) with
  | some kept => return (kept.value, false)
  | none => return (← v.refresh lookups index, true)

section Answer

variable {start : Clock} {lookups : Lookups (Run σ)} {index : Nat} {v : VariableDecl}
  {cells : Cells} {st : σ} {stored : Option Kept}

theorem answer_run : v.answer start lookups index cells st =
    match (cells.cell index).kept.filter (v.policy.isFresh start ·.time) with
    | some kept => some (((kept.value, false), cells), st)
    | none => (v.refresh lookups index cells st).map fun ((value, after), st') =>
        (((value, true), after), st') := by
  unfold answer
  change (match (cells.cell index).kept.filter (v.policy.isFresh start ·.time) with
    | some kept => _
    | none => _ : Run σ (Value × Bool)) cells st = _
  cases (cells.cell index).kept.filter (v.policy.isFresh start ·.time) with
  | some kept => rfl
  | none =>
      change (v.refresh lookups index cells st).bind _ = _
      cases v.refresh lookups index cells st with
      | none => rfl
      | some outcome => rfl

/-- If no time passes in the evaluation, this is what the variable is. -/
theorem current_eq_answer (v : VariableDecl) (lookups : Lookups (Run σ)) (index : Nat)
    (cells : Cells) (st : σ) :
    v.current lookups index cells st =
      (v.answer lookups.clock lookups index cells st).map fun (((value, _), after), st') =>
        ((value, after), st') := by
  have hrefresh : v.refresh lookups index cells st =
      ((v.refresh lookups index cells st).map fun ((value, after), st') =>
        (((value, true), after), st')).map fun (((value, _), after), st') =>
          ((value, after), st') := by
    rw [Option.map_map]
    exact Option.map_id'.symm
  rw [current_run, answer_run]
  cases (cells.cell index).kept with
  | none => exact hrefresh
  | some kept =>
      rw [Option.filter_some]
      by_cases hfresh : v.policy.isFresh lookups.clock kept.time = true
      · rw [if_pos hfresh]
        exact if_pos hfresh
      · rw [if_neg hfresh]
        exact (if_neg hfresh).trans hrefresh

theorem answer_of_stored (hcell : cells[index]? = some { kept := stored, evaluating := false }) :
    v.answer start lookups index cells st =
      match stored.filter (v.policy.isFresh start ·.time) with
      | some kept => some (((kept.value, false), cells), st)
      | none => (v.compute lookups (cells.setFlag index true) st).map fun ((value, after), st') =>
          (((value, true), v.keep lookups.clock.now index value (after.setFlag index false)),
            st') := by
  have hread : cells.cell index = { kept := stored, evaluating := false } := by
    rw [Cells.cell, hcell, Option.getD_some]
  rw [answer_run, hread]
  dsimp only
  cases stored.filter (v.policy.isFresh start ·.time) with
  | some kept => rfl
  | none =>
      dsimp only
      rw [refresh_run, guarded_run, hread, if_neg Bool.false_ne_true, Option.map_map,
        Option.map_map]
      rfl

theorem answer_of_standing (hcell : cells[index]? = some { kept := stored, evaluating := false })
    {kept : Kept} (hkept : stored = some kept) (hstands : v.policy.Stands start kept.time) :
    v.answer start lookups index cells st = some (((kept.value, false), cells), st) := by
  rw [answer_of_stored hcell, hkept, Option.filter_some, if_pos (Policy.isFresh_iff.mpr hstands)]

theorem answer_of_none_standing
    (hcell : cells[index]? = some { kept := stored, evaluating := false })
    (hnone : ∀ kept, stored = some kept → ¬ v.policy.Stands start kept.time) :
    v.answer start lookups index cells st =
      (v.compute lookups (cells.setFlag index true) st).map fun ((value, after), st') =>
        (((value, true), v.keep lookups.clock.now index value (after.setFlag index false)),
          st') := by
  have hover : stored.filter (v.policy.isFresh start ·.time) = none :=
    Option.filter_eq_none_iff.mpr fun kept hkept hfresh =>
      hnone kept hkept (Policy.isFresh_iff.mp hfresh)
  rw [answer_of_stored hcell, hover]

theorem evaluated_eq_false_iff
    (hcell : cells[index]? = some { kept := stored, evaluating := false })
    {value : Value} {evaluated : Bool} {after : Cells} {st' : σ}
    (hrun : v.answer start lookups index cells st = some (((value, evaluated), after), st')) :
    evaluated = false ↔ ∃ kept, stored = some kept ∧ v.policy.Stands start kept.time := by
  constructor
  · rintro rfl
    apply Classical.byContradiction
    intro hnone
    rw [answer_of_none_standing hcell fun kept hkept hstands => hnone ⟨kept, hkept, hstands⟩]
      at hrun
    obtain ⟨outcome, -, hreturned⟩ := Option.map_eq_some_iff.mp hrun
    cases hreturned
  · rintro ⟨kept, hkept, hstands⟩
    rw [answer_of_standing hcell hkept hstands] at hrun
    cases hrun
    rfl

end Answer

/-- What happens to the value of a variable. -/
inductive Event where
  /-- It is dropped. -/
  | dropped
  /-- It is asked for: a value is returned, after an evaluation between two times or without one. -/
  | answered (value : Value) (evaluated : Bool) (start finish : Nat)
  deriving DecidableEq

/-- What there is at a moment: the cells of all variables, what else evaluations may change, and the
host's times. -/
structure Moment (σ : Type) where
  cells : Cells
  state : σ
  clock : Clock

/-- The moments to which a variable can come, from one at which nothing is stored, with what has
happened to its value until then; the latest comes first. Time passes, the other times are set to
anything, and other variables change as they like. -/
inductive Reached (v : VariableDecl) (index : Nat) : List Event → Moment σ → Prop where
  | start {s : Moment σ} (hnew : s.cells[index]? = some {}) : Reached v index [] s
  | timed {events : List Event} {s : Moment σ} (h : Reached v index events s) (clock : Clock)
      (hlater : s.clock.now ≤ clock.now) : Reached v index events { s with clock := clock }
  | elsewhere {events : List Event} {s : Moment σ} (h : Reached v index events s) (cells : Cells)
      (state : σ) (hcell : cells[index]? = s.cells[index]?) :
      Reached v index events { s with cells := cells, state := state }
  | dropped {events : List Event} {s : Moment σ} (h : Reached v index events s) :
      Reached v index (.dropped :: events) { s with cells := s.cells.invalidateAt index }
  | allDropped {events : List Event} {s : Moment σ} (h : Reached v index events s) :
      Reached v index (.dropped :: events) { s with cells := s.cells.invalidate }
  | asked {events : List Event} {s : Moment σ} (h : Reached v index events s)
      (lookups : Lookups (Run σ)) (hlater : s.clock.now ≤ lookups.clock.now)
      (hspares : v.SparesItself lookups index s.cells s.state) {value : Value} {evaluated : Bool}
      {after : Cells} {state : σ}
      (hrun : v.answer s.clock lookups index s.cells s.state =
        some (((value, evaluated), after), state)) :
      Reached v index (.answered value evaluated s.clock.now lookups.clock.now :: events)
        ⟨after, state, lookups.clock⟩

/-- What a variable has stored since its value was dropped. -/
def storedSince (v : VariableDecl) : List Event → Option Kept
  | [] => none
  | .dropped :: _ => none
  | .answered value evaluated _ finish :: earlier =>
    if evaluated = true ∧ v.policy ≠ .always then some ⟨value, finish⟩ else v.storedSince earlier

/-- The times at which evaluations have started and ended. -/
def evaluations (events : List Event) : List (Nat × Nat) :=
  events.filterMap fun
    | .answered _ true start finish => some (start, finish)
    | _ => none

variable {v : VariableDecl} {index : Nat} {events : List Event} {s : Moment σ}

/-- The cell after an answer holds what is stored since then. -/
theorem cell_of_answer {lookups : Lookups (Run σ)} {value : Value} {evaluated : Bool}
    {after : Cells} {state : σ}
    (hcell : s.cells[index]? = some { kept := v.storedSince events, evaluating := false })
    (hspares : v.SparesItself lookups index s.cells s.state)
    (hrun : v.answer s.clock lookups index s.cells s.state =
      some (((value, evaluated), after), state)) :
    after[index]? = some
      { kept := v.storedSince (.answered value evaluated s.clock.now lookups.clock.now :: events)
        evaluating := false } := by
  rw [answer_of_stored hcell] at hrun
  cases hstands : (v.storedSince events).filter (v.policy.isFresh s.clock ·.time) with
  | some kept =>
      rw [hstands] at hrun
      cases hrun
      rw [hcell]
      rfl
  | none =>
      rw [hstands] at hrun
      obtain ⟨⟨⟨computed, between⟩, st'⟩, hcompute, hreturned⟩ := Option.map_eq_some_iff.mp hrun
      have hbetween := hspares computed between st' hcompute
      cases hreturned
      rw [getElem?_keep, Cells.getElem?_setFlag, hbetween, Cells.getElem?_setFlag, hcell]
      by_cases halways : v.policy = .always
      · rw [if_pos halways, storedSince, if_neg fun h => h.2 halways]
        rfl
      · rw [if_neg halways, storedSince, if_pos ⟨rfl, halways⟩]
        rfl

/-- At every moment the cell of a variable holds what it has stored since its value was dropped. -/
theorem Reached.cell (h : Reached v index events s) :
    s.cells[index]? = some { kept := v.storedSince events, evaluating := false } := by
  induction h with
  | start hnew => exact hnew
  | timed _ _ _ ih => exact ih
  | elsewhere _ _ _ hcell ih => exact hcell.trans ih
  | dropped _ ih =>
      dsimp only [Cells.invalidateAt]
      rw [List.getElem?_modify_eq, ih]
      rfl
  | allDropped _ ih =>
      dsimp only [Cells.invalidate]
      rw [List.getElem?_map, ih]
      rfl
  | asked _ _ _ hspares hrun ih => exact cell_of_answer ih hspares hrun

/-- No value counts from a time that is still to come. -/
theorem Reached.stored_le (h : Reached v index events s) {kept : Kept}
    (hkept : v.storedSince events = some kept) : kept.time ≤ s.clock.now := by
  induction h with
  | start _ => cases hkept
  | timed _ _ hlater ih => exact Nat.le_trans (ih hkept) hlater
  | elsewhere _ _ _ _ ih => exact ih hkept
  | dropped _ _ => cases hkept
  | allDropped _ _ => cases hkept
  | asked _ _ hlater _ _ ih =>
      rw [storedSince] at hkept
      split at hkept
      · cases hkept
        exact Nat.le_refl _
      · exact Nat.le_trans (ih hkept) hlater

/-- The moment before the latest event. -/
theorem Reached.before {event : Event} (h : Reached v index (event :: events) s) :
    ∃ s' : Moment σ, Reached v index events s' := by
  generalize hevents : event :: events = all at h
  -- Since the event time may have passed and other variables may have changed.
  induction h with
  | start _ => cases hevents
  | timed _ _ _ ih => exact ih hevents
  | elsewhere _ _ _ _ ih => exact ih hevents
  | dropped h _ | allDropped h _ | asked h _ _ _ _ _ =>
      cases hevents
      exact ⟨_, h⟩

theorem Reached.earlier {later : List Event} (h : Reached v index (later ++ events) s) :
    ∃ s' : Moment σ, Reached v index events s' := by
  induction later generalizing s with
  | nil => exact ⟨s, h⟩
  | cons event later ih =>
      obtain ⟨s', hbefore⟩ := h.before
      exact ih hbefore

/-- A variable is evaluated at the moment at which it is asked for, if nothing that it has stored
stands. -/
theorem Reached.of_answered {value : Value} {evaluated : Bool} {start finish : Nat}
    (h : Reached v index (.answered value evaluated start finish :: events) s) :
    ∃ s' : Moment σ, Reached v index events s' ∧ s'.clock.now = start ∧ start ≤ finish ∧
      (evaluated = false ↔
        ∃ kept, v.storedSince events = some kept ∧ v.policy.Stands s'.clock kept.time) := by
  generalize hevents : Event.answered value evaluated start finish :: events = all at h
  induction h with
  | start _ => cases hevents
  | timed _ _ _ ih => exact ih hevents
  | elsewhere _ _ _ _ ih => exact ih hevents
  | dropped _ _ | allDropped _ _ => cases hevents
  | asked h _ hlater _ hrun _ =>
      cases hevents
      exact ⟨_, h, rfl, hlater, evaluated_eq_false_iff h.cell hrun⟩

section Between

variable {between earlier : List Event}

/-- As long as its value is not dropped, a variable that has been evaluated has something stored,
and no evaluation has ended after the time from which it counts. -/
theorem stored_of_evaluated (hpolicy : v.policy ≠ .always)
    (h : Reached v index (between ++ earlier) s) (hbetween : .dropped ∉ between) :
    ∀ evaluation ∈ evaluations between, evaluation.1 ≤ evaluation.2 ∧
      ∃ kept, v.storedSince (between ++ earlier) = some kept ∧ evaluation.2 ≤ kept.time := by
  -- From the latest event back: what an evaluation stores is later than all that was stored before.
  induction between generalizing s with
  | nil =>
      intro evaluation hnone
      cases hnone
  | cons event between ih =>
      have hrest : .dropped ∉ between := fun h => hbetween (List.mem_cons_of_mem _ h)
      cases event with
      | dropped => exact absurd List.mem_cons_self hbetween
      | answered value evaluated start finish =>
          obtain ⟨s', hbefore, hstart, hle, -⟩ := h.of_answered
          cases evaluated with
          | false =>
              rw [List.cons_append, storedSince, if_neg fun h => Bool.false_ne_true h.1]
              exact ih hbefore hrest
          | true =>
              rw [List.cons_append, storedSince, if_pos ⟨rfl, hpolicy⟩]
              intro evaluation hevaluation
              obtain rfl | hearlier := List.mem_cons.mp hevaluation
              · exact ⟨hle, _, rfl, Nat.le_refl finish⟩
              · obtain ⟨hordered, kept, hkept, hbefore'⟩ := ih hbefore hrest evaluation hearlier
                have hpast := hbefore.stored_le hkept
                refine ⟨hordered, _, rfl, ?_⟩
                dsimp only
                omega

theorem evaluations_of_once (honce : v.policy = .once) (h : Reached v index (between ++ earlier) s)
    (hbetween : .dropped ∉ between) : (evaluations between).length ≤ 1 := by
  induction between generalizing s with
  | nil => exact Nat.zero_le 1
  | cons event between ih =>
      have hrest : .dropped ∉ between := fun h => hbetween (List.mem_cons_of_mem _ h)
      cases event with
      | dropped => exact absurd List.mem_cons_self hbetween
      | answered value evaluated start finish =>
          obtain ⟨s', hbefore, -, -, hevaluated⟩ := h.of_answered
          cases evaluated with
          | false => exact ih hbefore hrest
          | true =>
              have hfirst : evaluations between = [] := by
                apply List.eq_nil_iff_forall_not_mem.mpr
                intro evaluation hevaluation
                obtain ⟨-, kept, hkept, -⟩ := stored_of_evaluated (by simp [honce]) hbefore hrest
                  evaluation hevaluation
                cases hevaluated.mpr ⟨kept, hkept, honce ▸ .once⟩
              change (evaluations between).length + 1 ≤ 1
              rw [hfirst]
              exact Nat.le_refl 1

/-- From the end of an evaluation to the start of the next one so much time passes. -/
theorem evaluations_of_interval {span : Nat} (hinterval : v.policy = .interval span)
    (h : Reached v index (between ++ earlier) s) (hbetween : .dropped ∉ between) :
    (evaluations between).Pairwise fun next previous =>
      previous.1 ≤ previous.2 ∧ previous.2 + span ≤ next.1 := by
  induction between generalizing s with
  | nil => exact .nil
  | cons event between ih =>
      have hrest : .dropped ∉ between := fun h => hbetween (List.mem_cons_of_mem _ h)
      cases event with
      | dropped => exact absurd List.mem_cons_self hbetween
      | answered value evaluated start finish =>
          obtain ⟨s', hbefore, rfl, -, hevaluated⟩ := h.of_answered
          cases evaluated with
          | false => exact ih hbefore hrest
          | true =>
              apply List.Pairwise.cons _ (ih hbefore hrest)
              intro previous hprevious
              obtain ⟨hordered, kept, hkept, hend⟩ := stored_of_evaluated (by simp [hinterval])
                hbefore hrest previous hprevious
              have hpast := hbefore.stored_le hkept
              have hover : ¬ s'.clock.now - kept.time < span := by
                intro hstands
                cases hevaluated.mpr ⟨kept, hkept, hinterval ▸ .interval hstands⟩
              refine ⟨hordered, ?_⟩
              dsimp only
              omega

end Between

/-- A variable that is asked for returns what it has stored since its value was dropped, and does
not evaluate, if that stands by its policy. Otherwise it evaluates, returns the new value, and
stores it unless it keeps none. So between two times at which its value is dropped a variable kept
for good is evaluated at most once, and one kept for some time not again before that time is over.
-/
theorem evaluates_unless_stored_stands (h : Reached v index events s) :
    let stored := v.storedSince events
    (∀ kept, stored = some kept → kept.time ≤ s.clock.now) ∧
      (∀ lookups : Lookups (Run σ),
        let answer := v.answer s.clock lookups index s.cells s.state
        (lookups.clock = s.clock → v.current lookups index s.cells s.state =
          answer.map fun (((value, _), after), state) => ((value, after), state)) ∧
        (∀ kept, stored = some kept → v.policy.Stands s.clock kept.time →
          answer = some (((kept.value, false), s.cells), s.state)) ∧
        ((∀ kept, stored = some kept → ¬ v.policy.Stands s.clock kept.time) →
          answer = (v.compute lookups (s.cells.setFlag index true) s.state).map
            fun ((value, after), state) =>
              (((value, true), v.keep lookups.clock.now index value (after.setFlag index false)),
                state)) ∧
        ∀ value evaluated after state, answer = some (((value, evaluated), after), state) →
          (evaluated = false ↔ ∃ kept, stored = some kept ∧ v.policy.Stands s.clock kept.time) ∧
          (v.SparesItself lookups index s.cells s.state → (after.cell index).kept =
            if evaluated = true ∧ v.policy ≠ .always then some ⟨value, lookups.clock.now⟩
            else stored)) ∧
      ∀ later between earlier, events = later ++ (between ++ earlier) → .dropped ∉ between →
        (v.policy = .once → (evaluations between).length ≤ 1) ∧
        ∀ span, v.policy = .interval span → (evaluations between).Pairwise fun next previous =>
          previous.1 ≤ previous.2 ∧ previous.2 + span ≤ next.1 := by
  intro stored
  refine ⟨fun kept hkept => h.stored_le hkept, ?_, ?_⟩
  · intro lookups answer
    refine ⟨?_, ?_, ?_, ?_⟩
    · intro hclock
      rw [current_eq_answer, hclock]
    · intro kept hkept hstands
      exact answer_of_standing h.cell hkept hstands
    · intro hnone
      exact answer_of_none_standing h.cell hnone
    · intro value evaluated after state hrun
      refine ⟨evaluated_eq_false_iff h.cell hrun, ?_⟩
      intro hspares
      rw [Cells.cell, cell_of_answer h.cell hspares hrun]
      rfl
  · rintro later between earlier rfl hbetween
    obtain ⟨s', hreached⟩ := h.earlier
    exact ⟨fun honce => evaluations_of_once honce hreached hbetween,
      fun span hinterval => evaluations_of_interval hinterval hreached hbetween⟩

/-- A sum that is kept for a tenth of a second. -/
def sum : VariableDecl :=
  { id := "sum", value := .call .add [.reference "level", .number 1], policy := .interval 100 }

/-- The variables of the sum, at some volume and some time. -/
def sumLookups (volume : Int64) (now : Nat) : Lookups (Run Unit) :=
  let shown : Token := { name := "volume", id := 1 }
  let level : VariableDecl := { id := "level", value := .text ⟨[.token shown]⟩ }
  let world : Lookups Id :=
    { emptyWorld with
      token := fun _ => .number volume
      clock := { now := now } }
  VariableTable.lookups (.fixed world) ⟨[sum, level]⟩ 2

theorem sum_sparesItself (volume : Int64) (now : Nat) (kept : Option Kept) :
    sum.SparesItself (sumLookups volume now) 0 [{ kept := kept }, {}] () :=
  VariableTable.sparesItself_of_withholding (.fixed _) rfl rfl

/-- The volume rises from seven to nine, and the sum is asked for a millisecond before its time is
over and then again. -/
theorem evaluates_sum_when_time_is_over :
    let kept : Kept := ⟨.number 8, 1000⟩
    let events : List Event :=
      [.answered (.number 8) false 1099 1099, .answered (.number 8) true 1000 1000]
    let s : Moment Unit := ⟨[{ kept := some kept }, {}], (), { now := 1100 }⟩
    Reached sum 0 events s ∧ sum.storedSince events = some kept ∧
      sum.current (sumLookups 9 1100) 0 s.cells s.state =
        some ((.number 10, [{ kept := some ⟨.number 10, 1100⟩ }, {}]), ()) := by
  intro kept events s
  have hstart : Reached sum 0 [] (⟨[{}, {}], (), { now := 1000 }⟩ : Moment Unit) := .start rfl
  have hfirst : Reached sum 0 [.answered (.number 8) true 1000 1000]
      (⟨[{ kept := some kept }, {}], (), { now := 1000 }⟩ : Moment Unit) :=
    hstart.asked (sumLookups 7 1000) (Nat.le_refl 1000) (sum_sparesItself 7 1000 none) rfl
  have hstands : sum.policy.Stands { now := 1099 } kept.time := .interval (Nat.lt_succ_self 99)
  have hsecond : Reached sum 0 events
      (⟨[{ kept := some kept }, {}], (), { now := 1099 }⟩ : Moment Unit) :=
    (hfirst.timed { now := 1099 } (Nat.le_add_right 1000 99)).asked (sumLookups 9 1099)
      (Nat.le_refl 1099) (sum_sparesItself 9 1099 (some kept)) (answer_of_standing rfl rfl hstands)
  have hover : Reached sum 0 events s := hsecond.timed { now := 1100 } (Nat.le_add_right 1099 1)
  obtain ⟨-, hanswers, -⟩ := evaluates_unless_stored_stands hover
  obtain ⟨hcurrent, -, hevaluates, -⟩ := hanswers (sumLookups 9 1100)
  have hnone : ∀ kept', sum.storedSince events = some kept' →
      ¬ sum.policy.Stands s.clock kept'.time := by
    intro kept' hkept hstill
    cases hkept
    cases hstill with
    | interval h =>
        change 1100 - 1000 < 100 at h
        omega
  refine ⟨hover, rfl, ?_⟩
  rw [hcurrent rfl, hevaluates hnone]
  rfl

end VariableDecl

end PanelSkin
