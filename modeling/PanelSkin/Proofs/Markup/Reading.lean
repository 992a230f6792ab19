import Mathlib.Tactic
import PanelSkin.Markup.Delivery

/-!
A scan taken apart: the characters it reads without an error, the events they complete, and the
place where it ends. `Scanner.Effect` lists what one character can do to the open elements and
which events it can complete; everything said about a whole scan is derived from that list.
-/

namespace PanelSkin.Markup

namespace Scanner

variable {charset : Charset}

/-- The characters of `text` take a scan from `s` to `t` without an error and complete
`events`. -/
inductive Reads (charset : Charset) : Scanner → List Char → List Event → Scanner → Prop where
  | nil (s : Scanner) : Reads charset s [] [] s
  | cons {s next t : Scanner} {c : Char} {text : List Char} {first later : List Event}
      (hstep : s.step charset c = .ok (next, first))
      (hrest : Reads charset next text later t) :
      Reads charset s (c :: text) (first ++ later) t

/-- The scan cannot go on from `t`: the first of the remaining characters cannot stand there,
or none is left and the document must not end. -/
def FailsAt (charset : Charset) (t : Scanner) : List Char → SyntaxError → Prop
  | [], cause => t.finish charset = .error cause
  | c :: _, cause => t.step charset c = .error cause

/-- A character that completes no event. -/
theorem Reads.silent {s next t : Scanner} {c : Char} {text : List Char} {events : List Event}
    (hstep : s.step charset c = .ok (next, [])) (hrest : Reads charset next text events t) :
    Reads charset s (c :: text) events t := .cons hstep hrest

theorem Reads.append {s t u : Scanner} {text more : List Char} {events later : List Event}
    (hfirst : Reads charset s text events t) (hmore : Reads charset t more later u) :
    Reads charset s (text ++ more) (events ++ later) u := by
  induction hfirst with
  | nil _ => exact hmore
  | cons hstep _ ih =>
      rw [List.cons_append, List.append_assoc]
      exact .cons hstep (ih hmore)

/-- What is read behind a character is read from where the step on the character leads. -/
theorem Reads.behind {s next t : Scanner} {c : Char} {text : List Char} {first events : List Event}
    (h : Reads charset s (c :: text) events t) (hstep : s.step charset c = .ok (next, first)) :
    ∃ later, events = first ++ later ∧ Reads charset next text later t := by
  cases h with
  | cons hother hrest =>
      rw [hstep] at hother
      cases hother
      exact ⟨_, rfl, hrest⟩

/-- The line behind a character, counted on from it. -/
theorem line_of_cons (line : Nat) (c : Char) (text : List Char) :
    (if c = '\n' then line + 1 else line) + text.count '\n' = line + (c :: text).count '\n' := by
  rw [List.count_cons]
  by_cases hc : c = '\n'
  · simp [hc]
    omega
  · simp [hc]

/-- What was read stands in front of what the rest of the document gives. -/
theorem Reads.run_append {s t : Scanner} {text : List Char} {events : List Event}
    (hreads : Reads charset s text events t) (rest : List Char) :
    s.run charset (text ++ rest) =
      ⟨events ++ (t.run charset rest).events, (t.run charset rest).failure⟩ := by
  induction hreads with
  | nil _ => rfl
  | cons hstep _ ih => simp only [List.cons_append, run, hstep, ih, List.append_assoc]

/-- A scan reads the document up to its end, or up to a place where it fails; the events it
finds are those completed by the characters before that place. -/
theorem run_ends (charset : Charset) (s : Scanner) (text : List Char) :
    ∃ before rest events t, text = before ++ rest ∧ Reads charset s before events t ∧
      ((∃ last, rest = [] ∧ t.finish charset = .ok last ∧
          s.run charset text = ⟨events ++ last, none⟩) ∨
        ∃ cause, t.FailsAt charset rest cause ∧
          s.run charset text = ⟨events, some (t.line, cause)⟩) := by
  induction text generalizing s with
  | nil =>
      refine ⟨[], [], [], s, rfl, .nil s, ?_⟩
      cases hfinish : s.finish charset with
      | ok last => exact Or.inl ⟨last, rfl, rfl, by simp [run, hfinish]⟩
      | error cause => exact Or.inr ⟨cause, hfinish, by simp [run, hfinish]⟩
  | cons c text ih =>
      cases hstep : s.step charset c with
      | error cause =>
          exact ⟨[], c :: text, [], s, rfl, .nil s,
            Or.inr ⟨cause, hstep, by simp [run, hstep]⟩⟩
      | ok outcome =>
          obtain ⟨next, first⟩ := outcome
          obtain ⟨before, rest, events, t, rfl, hreads, hend⟩ := ih next
          refine ⟨c :: before, rest, first ++ events, t, rfl, .cons hstep hreads, ?_⟩
          rcases hend with ⟨last, hrest, hfinish, hrun⟩ | ⟨cause, hfails, hrun⟩
          · exact Or.inl ⟨last, hrest, hfinish,
              by simp [run, hstep, hrun, List.append_assoc]⟩
          · exact Or.inr ⟨cause, hfails, by simp [run, hstep, hrun]⟩

/-- What one character can do to a scan, its next mode aside. -/
inductive Effect (charset : Charset) (s : Scanner) : Step → Prop where
  /-- No event, and the same elements stay open. -/
  | silent (mode : Mode) : Effect charset s { mode, nesting := s.nesting }
  /-- Character data ends. -/
  | textEnds (pending : List Char) :
      Effect charset s
        { mode := .afterLess, nesting := s.nesting, events := flush charset s.line pending }
  | opens (tag : OpenTag) : Effect charset s (s.openElement tag)
  | opensAndCloses (tag : OpenTag) : Effect charset s (s.emptyElement tag)
  /-- The innermost open element ends. -/
  | closes (name : String) (outer : List String) (hnesting : s.nesting = name :: outer) :
      Effect charset s
        { mode := .content [], nesting := outer, events := [.finish name s.line] }

private theorem closeElement_effect (s : Scanner) (name : String) (next : Step)
    (h : s.closeElement name = .ok next) : Effect charset s next := by
  unfold closeElement at h
  split at h
  · cases h
  · rename_i expected outer hnesting
    split at h
    · rename_i hname
      subst hname
      cases h
      exact .closes _ outer hnesting
    · cases h

/-- Every step has one of the effects, whatever the mode and the character. -/
theorem advance_effect (s : Scanner) (c : Char) (next : Step)
    (h : s.advance charset c = .ok next) : Effect charset s next := by
  unfold advance at h
  cases hmode : s.mode <;> simp only [hmode] at h
  case closeName name =>
    split_ifs at h
    · cases h; exact .silent _
    · cases h; exact .silent _
    · exact closeElement_effect s _ next h
  case afterCloseName name =>
    split_ifs at h
    · exact closeElement_effect s _ next h
    · cases h; exact .silent _
  -- in every other mode the step is written out, so its shape names its effect
  all_goals split_ifs at h <;> cases h <;> constructor

end Scanner

end PanelSkin.Markup
