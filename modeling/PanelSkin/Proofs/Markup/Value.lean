import PanelSkin.Proofs.Markup.Content
import PanelSkin.Proofs.Markup.Reading

/-!
Which attribute values can be written. What stands between the quotes of an attribute is read
piece by piece: a backslash takes the next character with it, and is dropped if that is the
quote. So every value that is read has its backslashes in pairs before a quote and at the end,
and of these values each can be written, by a backslash before every quote.
-/

namespace PanelSkin.Markup

/-- `raw`, between two quotes, says `value`. A backslash is never read alone. -/
inductive Spells (quote : Char) : List Char → List Char → Prop where
  | nil : Spells quote [] []
  | plain {c : Char} {raw value : List Char} (hslash : c ≠ '\\') (hquote : c ≠ quote)
      (hrest : Spells quote raw value) : Spells quote (c :: raw) (c :: value)
  | escaped {raw value : List Char} (hrest : Spells quote raw value) :
      Spells quote ('\\' :: quote :: raw) (quote :: value)
  /-- A backslash before anything but the quote stands for itself. -/
  | pair {c : Char} {raw value : List Char} (hquote : c ≠ quote)
      (hrest : Spells quote raw value) : Spells quote ('\\' :: c :: raw) ('\\' :: c :: value)

variable {quote : Char}

theorem Spells.closedRuns (hquote : quote ≠ '\\') {raw value : List Char}
    (h : Spells quote raw value) : closedRuns quote false value = true := by
  induction h with
  | nil => rfl
  | plain hslash _ _ ih => simp [Markup.closedRuns, hslash, ih]
  | escaped _ ih => simp [Markup.closedRuns, hquote, ih]
  | @pair c _ _ hc _ ih =>
      by_cases hslash : c = '\\'
      · simp [Markup.closedRuns, hslash, ih]
      · simp [Markup.closedRuns, hslash, hc, ih]

/-- A backslash before every quote spells a value of which the runs of backslashes are closed,
also when one more backslash stands in front of both. -/
theorem spells_escapeQuotes (hquote : quote ≠ '\\') {value : List Char} (odd : Bool)
    (h : closedRuns quote odd value = true) :
    Spells quote ((if odd then ['\\'] else []) ++ escapeQuotes quote value)
      ((if odd then ['\\'] else []) ++ value) := by
  induction value generalizing odd with
  | nil =>
      have heven : odd = false := by simpa [closedRuns] using h
      subst heven
      exact .nil
  | cons c value ih =>
      rw [escapeQuotes, List.flatMap_cons, ← escapeQuotes]
      by_cases hslash : c = '\\'
      · subst hslash
        rw [closedRuns, if_pos rfl] at h
        rw [if_neg hquote.symm]
        cases odd with
        | false => exact ih true h
        | true => exact .pair hquote.symm (ih false h)
      · rw [closedRuns, if_neg hslash, Bool.and_eq_true] at h
        obtain ⟨hodd, hrest⟩ := h
        by_cases hc : c = quote
        · -- the value has an even number of backslashes in front of this quote
          subst hc
          have heven : odd = false := by simpa using hodd
          subst heven
          rw [if_pos rfl]
          exact .escaped (ih false hrest)
        · rw [if_neg hc]
          cases odd with
          | false => exact .plain hslash hc (ih false hrest)
          | true => exact .pair hc (ih false hrest)

theorem Quotable.spells (hquote : quote ≠ '\\') {value : List Char} (h : Quotable quote value) :
    Spells quote (escapeQuotes quote value) value :=
  spells_escapeQuotes hquote false ((quotable_iff_closedRuns hquote value).mp h)

theorem exists_spells_iff_quotable (hquote : quote ≠ '\\') (value : List Char) :
    (∃ raw, Spells quote raw value) ↔ Quotable quote value := by
  constructor
  · rintro ⟨raw, h⟩
    exact (quotable_iff_closedRuns hquote value).mpr (h.closedRuns hquote)
  · intro h
    exact ⟨_, h.spells hquote⟩

/-- A tag with one more attribute. -/
def OpenTag.adding (tag : OpenTag) (entry : String × String) : OpenTag :=
  { tag with attributes := tag.attributes.insert entry.1 entry.2 }

private theorem ne_slash_of_quote (hquote : quote = '"' ∨ quote = '\'') : quote ≠ '\\' := by
  rcases hquote with rfl | rfl <;> decide

namespace Scanner

/-! The scan of what stands between quotes. -/

variable {charset : Charset} {tag : OpenTag} {name : String} {tags : List String}

/-- A scan within the value of an attribute. -/
abbrev inValue (tag : OpenTag) (name : String) (quote : Char) (tags : List String)
    (escaped : Bool) (pending : List Char) (line : Nat) : Scanner :=
  ⟨.value tag name quote escaped pending, line, tags⟩

/-- From `s` on, the scan is within the value of an attribute as long as `raw` is read. -/
def StaysInValue (charset : Charset) (tag : OpenTag) (name : String) (quote : Char)
    (tags : List String) (s : Scanner) (raw : List Char) : Prop :=
  ∀ front, front <+: raw → ∃ escaped pending line,
    Reads charset s front [] (inValue tag name quote tags escaped pending line)

/-! One character of a value: a quote ends it unless a backslash stands before it, a backslash
waits for the next character, and all else is kept, with the backslash before it. -/

section Steps

variable (pending : List Char) (line : Nat)

theorem step_plain {c : Char} (hslash : c ≠ '\\') (hc : c ≠ quote) :
    (inValue tag name quote tags false pending line).step charset c =
      .ok (inValue tag name quote tags false (c :: pending)
        (if c = '\n' then line + 1 else line), []) := by
  simp [step, advance, hslash, hc]

theorem step_slash :
    (inValue tag name quote tags false pending line).step charset '\\' =
      .ok (inValue tag name quote tags true pending line, []) := by
  simp [step, advance]

theorem step_quote (hquote : quote ≠ '\\') :
    (inValue tag name quote tags false pending line).step charset quote =
      .ok (⟨.beforeName (tag.adding (name, charset (textOf pending))),
        if quote = '\n' then line + 1 else line, tags⟩, []) := by
  simp [step, advance, hquote, OpenTag.adding]

theorem step_escaped :
    (inValue tag name quote tags true pending line).step charset quote =
      .ok (inValue tag name quote tags false (quote :: pending)
        (if quote = '\n' then line + 1 else line), []) := by
  simp [step, advance]

theorem step_pair {c : Char} (hc : c ≠ quote) :
    (inValue tag name quote tags true pending line).step charset c =
      .ok (inValue tag name quote tags false (c :: '\\' :: pending)
        (if c = '\n' then line + 1 else line), []) := by
  simp [step, advance, hc]

end Steps

/-- One more character of a value, if the scan stays in the value. -/
theorem StaysInValue.cons {s next : Scanner} {c : Char} {raw : List Char}
    (hs : ∃ escaped pending line, s = inValue tag name quote tags escaped pending line)
    (hstep : s.step charset c = .ok (next, []))
    (h : StaysInValue charset tag name quote tags next raw) :
    StaysInValue charset tag name quote tags s (c :: raw) := by
  intro front hfront
  rcases List.prefix_cons_iff.mp hfront with rfl | ⟨front, rfl, hrest⟩
  · obtain ⟨escaped, pending, line, rfl⟩ := hs
    exact ⟨escaped, pending, line, .nil _⟩
  · obtain ⟨escaped, pending, line, hreads⟩ := h front hrest
    exact ⟨escaped, pending, line, .cons hstep hreads⟩

theorem StaysInValue.behind {s next : Scanner} {c : Char} {raw : List Char}
    (h : StaysInValue charset tag name quote tags s (c :: raw))
    (hstep : s.step charset c = .ok (next, [])) :
    StaysInValue charset tag name quote tags next raw := by
  intro front hfront
  obtain ⟨escaped, pending, line, hreads⟩ :=
    h (c :: front) (List.cons_prefix_cons.mpr ⟨rfl, hfront⟩)
  obtain ⟨later, hnone, hrest⟩ := hreads.behind hstep
  rw [List.nil_append] at hnone
  exact ⟨escaped, pending, line, hnone ▸ hrest⟩

/-- What spells a value is read as the value, and no quote in it ends the value. -/
theorem reads_of_spells {raw value : List Char} (h : Spells quote raw value)
    (pending : List Char) (line : Nat) :
    StaysInValue charset tag name quote tags (inValue tag name quote tags false pending line) raw ∧
      ∃ line', Reads charset (inValue tag name quote tags false pending line) raw []
        (inValue tag name quote tags false (value.reverse ++ pending) line') := by
  induction h generalizing pending line with
  | nil =>
      refine ⟨?_, line, .nil _⟩
      intro front hfront
      rw [List.prefix_nil.mp hfront]
      exact ⟨false, pending, line, .nil _⟩
  | @plain c raw value hslash hc _ ih =>
      obtain ⟨hstays, line', hreads⟩ := ih (c :: pending) _
      rw [List.reverse_cons, List.append_assoc]
      exact ⟨hstays.cons ⟨_, _, _, rfl⟩ (step_plain pending line hslash hc), line',
        .cons (step_plain pending line hslash hc) hreads⟩
  | @escaped raw value _ ih =>
      obtain ⟨hstays, line', hreads⟩ := ih (quote :: pending) _
      rw [List.reverse_cons, List.append_assoc]
      refine ⟨?_, line', .cons (step_slash pending line) (.cons (step_escaped pending line) hreads)⟩
      exact (hstays.cons ⟨_, _, _, rfl⟩ (step_escaped pending line)).cons ⟨_, _, _, rfl⟩
        (step_slash pending line)
  | @pair c raw value hc _ ih =>
      obtain ⟨hstays, line', hreads⟩ := ih (c :: '\\' :: pending) _
      rw [List.reverse_cons, List.reverse_cons, List.append_assoc, List.append_assoc]
      refine ⟨?_, line', .cons (step_slash pending line) (.cons (step_pair pending line hc) hreads)⟩
      exact (hstays.cons ⟨_, _, _, rfl⟩ (step_pair pending line hc)).cons ⟨_, _, _, rfl⟩
        (step_slash pending line)

/-- What is read as a value, and stays in it to the end, spells the value. A backslash that is
pending counts as the first character of both. -/
theorem spells_of_reads (hquote : quote ≠ '\\') {raw final : List Char} (escaped : Bool)
    (pending : List Char) (line : Nat)
    (hstays : StaysInValue charset tag name quote tags
      (inValue tag name quote tags escaped pending line) raw)
    (hreads : ∃ line', Reads charset (inValue tag name quote tags escaped pending line) raw []
      (inValue tag name quote tags false final line')) :
    ∃ value, final = value.reverse ++ pending ∧
      Spells quote ((if escaped then ['\\'] else []) ++ raw) value := by
  induction raw generalizing escaped pending line with
  | nil =>
      obtain ⟨line', hnone⟩ := hreads
      cases hnone
      exact ⟨[], rfl, .nil⟩
  | cons c raw ih =>
      obtain ⟨line', hreads⟩ := hreads
      -- where a character leaves the scan in the value, the rest is what the hypothesis is about
      have further {escaped' : Bool} {pending' : List Char} {line₁ : Nat}
          (hstep : (inValue tag name quote tags escaped pending line).step charset c =
            .ok (inValue tag name quote tags escaped' pending' line₁, [])) :
          ∃ value, final = value.reverse ++ pending' ∧
            Spells quote ((if escaped' then ['\\'] else []) ++ raw) value := by
        obtain ⟨later, hnone, hrest⟩ := hreads.behind hstep
        rw [List.nil_append] at hnone
        exact ih escaped' pending' line₁ (hstays.behind hstep) ⟨line', hnone ▸ hrest⟩
      cases escaped with
      | true =>
          by_cases hc : c = quote
          · subst hc
            obtain ⟨value, rfl, hspells⟩ := further (step_escaped pending line)
            exact ⟨c :: value, by simp, .escaped hspells⟩
          · obtain ⟨value, rfl, hspells⟩ := further (step_pair pending line hc)
            exact ⟨'\\' :: c :: value, by simp, .pair hc hspells⟩
      | false =>
          by_cases hslash : c = '\\'
          · subst hslash
            exact further (step_slash pending line)
          · by_cases hc : c = quote
            · -- this quote ends the value, so the scan does not stay in it
              subst hc
              obtain ⟨_, _, _, hwithin⟩ := hstays [c] (List.prefix_append [c] raw)
              obtain ⟨_, -, hended⟩ := hwithin.behind (step_quote pending line hquote)
              cases hended
            · obtain ⟨value, rfl, hspells⟩ := further (step_plain pending line hslash hc)
              exact ⟨c :: value, by simp, .plain hslash hc hspells⟩

theorem step_opening (line : Nat) (hquote : quote = '"' ∨ quote = '\'') :
    step charset ⟨.beforeValue tag name true, line, tags⟩ quote =
      .ok (inValue tag name quote tags false [] line, []) := by
  rcases hquote with rfl | rfl <;> rfl

/-- Behind an equals sign, `raw` stands between two quotes and is read as `value`. The scan is in
the value behind the first quote and as long as `raw` is read, has then kept `value`, and ends the
attribute with the last quote. -/
structure Delimits (charset : Charset) (tag : OpenTag) (name : String) (quote : Char) (line : Nat)
    (tags : List String) (raw value : List Char) : Prop where
  within : ∀ front, front <+: raw → ∃ escaped pending line',
    Reads charset ⟨.beforeValue tag name true, line, tags⟩ (quote :: front) []
      ⟨.value tag name quote escaped pending, line', tags⟩
  kept : ∃ line', Reads charset ⟨.beforeValue tag name true, line, tags⟩ (quote :: raw) []
    ⟨.value tag name quote false value.reverse, line', tags⟩
  ended : ∃ line', Reads charset ⟨.beforeValue tag name true, line, tags⟩
    (quote :: raw ++ [quote]) []
    ⟨.beforeName (tag.adding (name, charset (String.ofList value))), line', tags⟩

/-- What stands between two quotes is read as a value exactly if it spells the value. -/
theorem delimits_iff_spells (hquote : quote = '"' ∨ quote = '\'') (line : Nat)
    (raw value : List Char) :
    Delimits charset tag name quote line tags raw value ↔ Spells quote raw value := by
  have hslash := ne_slash_of_quote hquote
  have hopening : step charset ⟨.beforeValue tag name true, line, tags⟩ quote =
      .ok (inValue tag name quote tags false [] line, []) := step_opening line hquote
  constructor
  · rintro ⟨hwithin, ⟨line', hkept⟩, -⟩
    have hstays : StaysInValue charset tag name quote tags
        (inValue tag name quote tags false [] line) raw := by
      intro front hfront
      obtain ⟨escaped, pending, line'', hreads⟩ := hwithin front hfront
      obtain ⟨later, rfl, hrest⟩ := hreads.behind hopening
      exact ⟨escaped, pending, line'', hrest⟩
    obtain ⟨later, rfl, hreads⟩ := hkept.behind hopening
    obtain ⟨spelled, hfinal, hspells⟩ :=
      spells_of_reads hslash false [] line hstays ⟨line', hreads⟩
    rw [List.append_nil] at hfinal
    rw [List.reverse_inj.mp hfinal]
    exact hspells
  · intro hspells
    have hread : StaysInValue charset tag name quote tags
          (inValue tag name quote tags false [] line) raw ∧
        ∃ line', Reads charset (inValue tag name quote tags false [] line) raw []
          (inValue tag name quote tags false (value.reverse ++ []) line') :=
      reads_of_spells hspells [] line
    obtain ⟨hstays, line', hkept⟩ := hread
    rw [List.append_nil] at hkept
    refine ⟨?_, ⟨line', .cons hopening hkept⟩, ?_⟩
    · intro front hfront
      obtain ⟨escaped, pending, line'', hreads⟩ := hstays front hfront
      exact ⟨escaped, pending, line'', .cons hopening hreads⟩
    · have hending : (inValue tag name quote tags false value.reverse line').step charset quote =
          .ok (⟨.beforeName (tag.adding (name, charset (textOf value.reverse))),
            if quote = '\n' then line' + 1 else line', tags⟩, []) :=
        step_quote value.reverse line' hslash
      rw [textOf, List.reverse_reverse] at hending
      exact ⟨_, Reads.append (.cons hopening hkept) (.cons hending (.nil _))⟩

/-- A value can be written between quotes exactly if its backslashes before these quotes and at its
end come in runs of even length. Then a backslash before each of the quotes writes it. Around the
value there may be any tag, any open elements and any charset. -/
theorem written_iff_quotable (charset : Charset) (tag : OpenTag) (name : String) (line : Nat)
    (tags : List String) (hquote : quote = '"' ∨ quote = '\'') (value : List Char) :
    ((∃ raw, Delimits charset tag name quote line tags raw value) ↔ Quotable quote value) ∧
      (Quotable quote value →
        Delimits charset tag name quote line tags (escapeQuotes quote value) value) := by
  have hslash := ne_slash_of_quote hquote
  constructor
  · simp only [delimits_iff_spells hquote]
    exact exists_spells_iff_quotable hslash value
  · intro hquotable
    exact (delimits_iff_spells hquote line _ value).mpr (hquotable.spells hslash)

/-- Two backslashes and an apostrophe can be written between apostrophes, and one backslash and an
apostrophe cannot. -/
theorem written_iff_quotable_apostrophe :
    let value := ['\\', '\\', '\'']
    ('\'' = '"' ∨ '\'' = '\'') ∧ Quotable '\'' value ∧
      Delimits id ⟨"a", {}⟩ "v" '\'' 1 [] ['\\', '\\', '\\', '\''] value ∧
      ¬ ∃ raw, Delimits id ⟨"a", {}⟩ "v" '\'' 1 [] raw ['\\', '\''] := by
  intro value
  have hquote : '\'' = '"' ∨ '\'' = '\'' := Or.inr rfl
  have hquotable : Quotable '\'' value := by
    rw [quotable_iff_closedRuns (by decide)]
    decide
  have hlone : ¬ Quotable '\'' ['\\', '\''] := by
    rw [quotable_iff_closedRuns (by decide)]
    decide
  refine ⟨hquote, hquotable, ?_, ?_⟩
  · exact (written_iff_quotable id ⟨"a", {}⟩ "v" 1 [] hquote value).2 hquotable
  · intro hwritten
    exact hlone ((written_iff_quotable id ⟨"a", {}⟩ "v" 1 [] hquote ['\\', '\'']).1.mp hwritten)

end Scanner

end PanelSkin.Markup
