import PanelSkin.Proofs.Markup.Content
import PanelSkin.Proofs.Markup.Reading
import PanelSkin.Proofs.Markup.Reference

/-!
Texts put in the place of include tags. Which characters are a tag is up to the scanner: what it
reads on the way to a completed tag is held back, and left out if the tag names a file. Inside
tags a scan does not depend on what stands around the text, and no character reference extends
over the end of a tag; so the parts of a spliced text are read as they are read by themselves.
-/

namespace PanelSkin.Markup

/-- Between tags. -/
def Mode.isContent : Mode → Bool
  | .content _ => true
  | _ => false

/-- The file that an include element names, if these are the events of an include tag that is
closed at once. -/
def includedPath? : List Event → Option String
  | [.start tag attributes _, .finish _ _] =>
    if tag = "include" then attributes.get? "path" else none
  | _ => none

namespace Scanner

/-- What is left of a text, with every include tag replaced by the contents of the file it names.
The characters of the tag in which the scan stands are in `markup`. -/
def splice (contents : String → Option (List Char)) (s : Scanner) (markup : List Char) :
    List Char → Option (List Char)
  | [] => some markup.reverse
  | c :: rest =>
    match s.step id c with
    | .error _ => none
    | .ok (next, events) =>
      match includedPath? events with
      | some file => do
        let inner ← contents file
        let after ← next.splice contents [] rest
        return inner ++ after
      | none =>
        if next.mode.isContent then do
          let after ← next.splice contents [] rest
          return (c :: markup).reverse ++ after
        else next.splice contents (c :: markup) rest

/-- Whether no element of this name is open anywhere in what is left of a text, so that each of
them has to be a single tag. -/
def neverOpens (name : String) (s : Scanner) : List Char → Bool
  | [] => !s.nesting.contains name
  | c :: rest =>
    !s.nesting.contains name &&
      match s.step id c with
      | .error _ => true
      | .ok (next, _) => next.neverOpens name rest

end Scanner

/-! Character references do not extend over the end of a tag. -/

/-- No character behind the end of a tag belongs to a reference before it. -/
theorem Replaced.tagEnd {plus : Bool} {front rest said later : List Char}
    (h : Replaced (RefersTo plus) (front ++ ['>']) said)
    (hrest : Replaced (RefersTo plus) rest later) :
    Replaced (RefersTo plus) (front ++ '>' :: rest) (said ++ later) := by
  generalize htext : front ++ ['>'] = text at h
  induction h generalizing front with
  | nil => exact absurd htext (by simp)
  | other hc hinner ih =>
      cases front with
      | nil =>
          obtain ⟨rfl, rfl⟩ := List.cons.inj htext
          cases hinner
          exact .other hc hrest
      | cons d front =>
          obtain ⟨rfl, hfront⟩ := List.cons.inj htext
          exact .other hc (ih hfront)
  | @reference name c after _ hname hrefers _ ih =>
      cases front with
      | nil => exact absurd htext (by simp)
      | cons d front =>
          obtain ⟨rfl, hfront⟩ := List.cons.inj htext
          -- the semicolon is not the last character, for that is the end of the tag
          obtain rfl | ⟨inner, last, rfl⟩ := List.eq_nil_or_concat after
          · have hlast := List.append_inj_right' hfront rfl
            cases hlast
          · have hsplit : front ++ ['>'] = (name ++ ';' :: inner) ++ [last] := by
              simpa using hfront
            obtain ⟨rfl, hlast⟩ := List.append_inj' hsplit rfl
            cases hlast
            have hbehind := Replaced.reference hname hrefers (ih List.concat_eq_append.symm)
            simpa using hbehind
  | kept hnone _ ih =>
      cases front with
      | nil => exact absurd htext (by simp)
      | cons d front =>
          obtain ⟨rfl, rfl⟩ := List.cons.inj htext
          refine .kept ?_ (ih rfl)
          intro name after c hsplit hname hrefers
          rcases List.append_eq_append_iff.mp hsplit with ⟨inner, rfl, hend⟩ | ⟨inner, rfl, hend⟩
          · cases inner with
            | nil => cases hend
            | cons e inner =>
                obtain ⟨rfl, -⟩ := List.cons.inj hend
                exact hrefers.notMem (d := '>') rfl (by simp)
          · cases inner with
            | nil => cases hend
            | cons e inner =>
                obtain ⟨rfl, -⟩ := List.cons.inj hend
                exact hnone name (inner ++ ['>']) c (List.append_assoc _ _ _) hname hrefers

theorem decodeEntities_tagEnd (front rest : List Char) : decodeEntities (front ++ '>' :: rest) =
    decodeEntities (front ++ ['>']) ++ decodeEntities rest :=
  (((replaced_iff _ _).mpr rfl).tagEnd ((replaced_iff rest _).mpr rfl)).decodeEntities_eq

/-- Characters kept last first, of which the last is the end of a tag, or no characters. -/
def EndsTag (reversed : List Char) : Prop := ∀ c, reversed.head? = some c → c = '>'

theorem EndsTag.append {pending before : List Char} (hpending : EndsTag pending)
    (hbefore : EndsTag before) : EndsTag (pending ++ before) := by
  cases pending with
  | nil => exact hbefore
  | cons c pending => exact hpending

/-- Behind the end of a tag, texts are decoded by themselves. -/
theorem decodeEntities_reverse_append {before : List Char} (h : EndsTag before)
    (pending : List Char) : decodeEntities (pending ++ before).reverse =
      decodeEntities before.reverse ++ decodeEntities pending.reverse := by
  cases before with
  | nil => simp [decodeEntities, decodeEntitiesAfter]
  | cons c before =>
      obtain rfl := h c rfl
      rw [List.reverse_append, List.reverse_cons, List.append_assoc]
      exact decodeEntities_tagEnd _ _

namespace Scanner

variable {charset : Charset} {s next t : Scanner} {c : Char} {text : List Char}
  {events : List Event}

theorem step_eq_ok_iff : s.step charset c = .ok (next, events) ↔
    next.line = (if c = '\n' then s.line + 1 else s.line) ∧
      s.advance charset c = .ok ⟨next.mode, next.nesting, events⟩ := by
  unfold step
  cases s.advance charset c with
  | error cause => simp
  | ok outcome =>
      obtain ⟨mode, nesting, found⟩ := outcome
      obtain ⟨last, line, left⟩ := next
      simp only [Except.ok.injEq, Prod.mk.injEq, Scanner.mk.injEq, Step.mk.injEq]
      tauto

theorem closeElement_eq_ok {name : String} {outcome : Step} :
    s.closeElement name = .ok outcome ↔ ∃ outer, s.nesting = name :: outer ∧
      outcome = { mode := .content [], nesting := outer, events := [.finish name s.line] } := by
  unfold closeElement
  cases s.nesting with
  | nil => simp
  | cons expected outer =>
      by_cases hname : expected = name
      · simp [hname, eq_comm]
      · simp [hname]

/-- Inside a tag nothing is completed until the tag ends, and then no text is pending. -/
theorem advance_inside {outcome : Step} (hmode : s.mode.isContent = false)
    (h : s.advance charset c = .ok outcome) : outcome.mode = .content [] ∨
      outcome.mode.isContent = false ∧ outcome.nesting = s.nesting ∧ outcome.events = [] := by
  unfold advance at h
  cases hs : s.mode <;> simp only [hs] at h
  case content pending =>
    rw [hs] at hmode
    cases hmode
  case closeName name =>
    split_ifs at h
    · cases h; exact .inr ⟨rfl, rfl, rfl⟩
    · cases h; exact .inr ⟨rfl, rfl, rfl⟩
    · obtain ⟨outer, -, rfl⟩ := closeElement_eq_ok.mp h
      exact .inl rfl
  case afterCloseName name =>
    split_ifs at h
    · obtain ⟨outer, -, rfl⟩ := closeElement_eq_ok.mp h
      exact .inl rfl
    · cases h; exact .inr ⟨rfl, rfl, rfl⟩
  all_goals split_ifs at h <;> cases h <;> first | exact .inl rfl | exact .inr ⟨rfl, rfl, rfl⟩

/-- Inside a tag a step does the same on any line and inside of any other elements. -/
theorem advance_around {outcome : Step} (hmode : s.mode.isContent = false)
    (h : s.advance charset c = .ok outcome) (line : Nat) (outer : List String) :
    ∃ found, advance charset ⟨s.mode, line, s.nesting ++ outer⟩ c =
        .ok ⟨outcome.mode, outcome.nesting ++ outer, found⟩ ∧
      found.map Event.piece = outcome.events.map Event.piece := by
  have hclose (name : String) (hclosed : s.closeElement name = .ok outcome) :
      closeElement ⟨s.mode, line, s.nesting ++ outer⟩ name =
        .ok ⟨outcome.mode, outcome.nesting ++ outer, [.finish name line]⟩ ∧
      [Event.finish name line].map Event.piece = outcome.events.map Event.piece := by
    obtain ⟨left, hnesting, rfl⟩ := closeElement_eq_ok.mp hclosed
    exact ⟨closeElement_eq_ok.mpr ⟨left ++ outer, by simp [hnesting], rfl⟩, rfl⟩
  unfold advance at h ⊢
  cases hs : s.mode <;> simp only [hs] at h hclose ⊢
  case content pending =>
    rw [hs] at hmode
    cases hmode
  case closeName name =>
    split_ifs at h ⊢
    · cases h; exact ⟨[], rfl, rfl⟩
    · cases h; exact ⟨[], rfl, rfl⟩
    · exact ⟨_, hclose _ h⟩
  case afterCloseName name =>
    split_ifs at h ⊢
    · exact ⟨_, hclose _ h⟩
    · cases h; exact ⟨[], rfl, rfl⟩
  all_goals split_ifs at h ⊢ <;> cases h <;> exact ⟨_, rfl, rfl⟩

theorem finish_eq_ok : s.finish charset = .ok events ↔
    ∃ pending, s = ⟨.content pending, s.line, []⟩ ∧ events = flush charset s.line pending := by
  obtain ⟨mode, line, nesting⟩ := s
  unfold finish
  cases mode with
  | content pending => cases nesting <;> simp [eq_comm]
  | _ => simp

/-- A text that is pending behind some characters ends in the last of them. -/
theorem Reads.endsTag {pending : List Char} (h : Reads charset s text events t)
    (hmode : t.mode = .content pending) (hlast : text.getLast? = some '>') :
    EndsTag pending := by
  induction h with
  | nil s => cases hlast
  | @cons s next t c text first later hstep hrest ih =>
      cases hrest with
      | cons hnext hlater => exact ih hmode (by simpa using hlast)
      | nil =>
          obtain rfl : c = '>' := by simpa using hlast
          obtain ⟨-, hadvance⟩ := step_eq_ok_iff.mp hstep
          rw [hmode] at hadvance
          cases hs : s.mode.isContent with
          | false =>
              rcases advance_inside hs hadvance with hempty | ⟨hinside, -⟩
              · cases hempty
                intro d hd
                cases hd
              · cases hinside
          | true =>
              obtain ⟨mode, line, nesting⟩ := s
              cases mode with
              | content before =>
                  cases hadvance
                  intro d hd
                  exact (Option.some.inj hd).symm
              | _ => cases hs

section Splice

variable {contents other : String → Option (List Char)} {file : String} {inner : List Char}

theorem splice_of_included (hstep : s.step id c = .ok (next, events))
    (hincluded : includedPath? events = some file) (hcontents : contents file = some inner)
    (markup rest : List Char) : s.splice contents markup (c :: rest) =
      (next.splice contents [] rest).map (inner ++ ·) := by
  simp only [splice, hstep, hincluded, hcontents]
  cases next.splice contents [] rest <;> rfl

theorem splice_of_content (hstep : s.step id c = .ok (next, events))
    (hplain : includedPath? events = none) (hmode : next.mode.isContent = true)
    (markup rest : List Char) : s.splice contents markup (c :: rest) =
      (next.splice contents [] rest).map ((c :: markup).reverse ++ ·) := by
  simp only [splice, hstep, hplain, hmode, if_true]
  cases next.splice contents [] rest <;> rfl

theorem splice_of_inside (hstep : s.step id c = .ok (next, events))
    (hplain : includedPath? events = none) (hmode : next.mode.isContent = false)
    (markup rest : List Char) : s.splice contents markup (c :: rest) =
      next.splice contents (c :: markup) rest := by
  simp [splice, hstep, hplain, hmode]

/-- Contents of more files change nothing about a text that has been spliced without them. -/
theorem splice_mono (h : ∀ file inner, contents file = some inner → other file = some inner)
    {markup result : List Char} (hresult : s.splice contents markup text = some result) :
    s.splice other markup text = some result := by
  induction text generalizing s markup result with
  | nil => exact hresult
  | cons c rest ih =>
      cases hstep : s.step id c with
      | error cause =>
          rw [splice, hstep] at hresult
          cases hresult
      | ok found =>
          obtain ⟨next, events⟩ := found
          cases hincluded : includedPath? events with
          | none =>
              cases hmode : next.mode.isContent with
              | false =>
                  rw [splice_of_inside hstep hincluded hmode] at hresult ⊢
                  exact ih hresult
              | true =>
                  rw [splice_of_content hstep hincluded hmode] at hresult ⊢
                  obtain ⟨after, hafter, rfl⟩ := Option.map_eq_some_iff.mp hresult
                  rw [ih hafter, Option.map_some]
          | some file =>
              cases hcontents : contents file with
              | none =>
                  simp only [splice, hstep, hincluded, hcontents] at hresult
                  cases hresult
              | some inner =>
                  rw [splice_of_included hstep hincluded hcontents] at hresult
                  rw [splice_of_included hstep hincluded (h file inner hcontents)]
                  obtain ⟨after, hafter, rfl⟩ := Option.map_eq_some_iff.mp hresult
                  rw [ih hafter, Option.map_some]

theorem not_mem_of_neverOpens {name : String} (h : s.neverOpens name text = true) :
    name ∉ s.nesting := by
  cases text <;> simp_all [neverOpens]

theorem neverOpens_of_step {name : String} (hstep : s.step id c = .ok (next, events))
    (h : s.neverOpens name (c :: text) = true) : next.neverOpens name text = true := by
  simp only [neverOpens, hstep, Bool.and_eq_true] at h
  exact h.2

end Splice

end Scanner

end PanelSkin.Markup
