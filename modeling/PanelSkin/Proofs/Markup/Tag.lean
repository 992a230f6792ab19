import PanelSkin.Proofs.Markup.Attributes
import PanelSkin.Proofs.Markup.Buffers
import PanelSkin.Proofs.Markup.Lines
import PanelSkin.Proofs.Markup.RoundTrip

/-!
Where the attributes of an element come from. A tag says its name and then, one after the other, its
attributes. In every mode within a tag it is known which text stands between the bracket that opens
the tag and the place reached; one character leads from one such text to the next. So an element is
handed over with what its own tag says, inserted in the order of the text.
-/

namespace PanelSkin.Markup

/-- An attribute as it stands in a tag, with the gap in front of it. -/
structure AttributeText where
  gap : List Char
  name : String
  before : List Char
  after : List Char
  quote : Char
  raw : List Char
  value : List Char
  isGap : IsGap gap
  isName : IsName name
  isBefore : IsGap before
  isAfter : IsGap after
  isQuote : quote = '"' ∨ quote = '\''
  spells : Spells quote raw value

def AttributeText.text (a : AttributeText) : List Char :=
  a.gap ++ (a.name.toList ++ (a.before ++ '=' :: (a.after ++ a.quote :: (a.raw ++ [a.quote]))))

/-- The name and the value, re-encoded. -/
def AttributeText.entry (charset : Charset) (a : AttributeText) : String × String :=
  (a.name, charset (String.ofList a.value))

/-- An opening tag as it stands between its bracket and the place where it ends. -/
structure TagText where
  name : String
  attributes : List AttributeText
  gap : List Char
  isName : IsName name
  isGap : IsGap gap
  /-- An attribute can follow a value at once, but not the name of the tag. -/
  isApart : ∀ first ∈ attributes.head?, first.gap ≠ []

namespace TagText

def text (t : TagText) : List Char :=
  t.name.toList ++ (t.attributes.flatMap AttributeText.text ++ t.gap)

/-- The tag that the text stands for: its attributes are those of the text, in order. -/
def openTag (charset : Charset) (t : TagText) : OpenTag where
  name := t.name
  attributes := Attributes.insertAll {} (t.attributes.map (AttributeText.entry charset))

/-- Whether an attribute can follow. -/
def IsOpen (t : TagText) : Prop := t.attributes = [] → t.gap ≠ []

/-- A tag of which nothing but the name has been read. -/
def named (name : String) (h : IsName name) : TagText where
  name := name
  attributes := []
  gap := []
  isName := h
  isGap := List.forall_mem_nil _
  isApart := by simp

/-- A tag with another gap at its end. -/
def withGap (t : TagText) (gap : List Char) (h : IsGap gap) : TagText where
  name := t.name
  attributes := t.attributes
  gap := gap
  isName := t.isName
  isGap := h
  isApart := t.isApart

/-- A tag whose gap, and what has been read behind it, is one more attribute. -/
def adding (t : TagText) (h : t.IsOpen) (a : AttributeText) (hgap : a.gap = t.gap) : TagText where
  name := t.name
  attributes := t.attributes ++ [a]
  gap := []
  isName := t.isName
  isGap := List.forall_mem_nil _
  isApart := by
    intro first hfirst
    cases hattributes : t.attributes with
    | nil =>
        rw [hattributes] at hfirst
        cases hfirst
        exact hgap ▸ h hattributes
    | cons earlier rest =>
        rw [hattributes] at hfirst
        exact t.isApart first (hattributes ▸ hfirst)

end TagText

/-! Names and gaps, one character after the other. -/

theorem startsName_of_isNameStart {c : Char} (h : isNameStart c = true) : StartsName c := by
  unfold isNameStart Char.isAlpha Char.isUpper Char.isLower at h
  simp only [Bool.or_eq_true, Bool.and_eq_true, decide_eq_true_eq, beq_iff_eq] at h
  rcases h with (hupper | hlower) | hunderscore
  · exact Or.inl hupper
  · exact Or.inr (Or.inl hlower)
  · exact Or.inr (Or.inr hunderscore)

theorem isName_single {c : Char} (h : isNameStart c = true) : IsName (textOf [c]) :=
  ⟨c, [], String.toList_ofList, startsName_of_isNameStart h, List.forall_mem_nil _⟩

theorem IsName.keep {letters : List Char} (h : IsName (textOf letters)) {c : Char}
    (hc : isNameChar c = true) : IsName (textOf (c :: letters)) := by
  obtain ⟨first, rest, hname, hfirst, hrest⟩ := h
  refine ⟨first, rest ++ [c], ?_, hfirst, ?_⟩
  · rw [textOf, String.toList_ofList] at hname ⊢
    rw [List.reverse_cons, hname, List.cons_append]
  · intro d hd
    rcases List.mem_append.mp hd with hd | hd
    · exact hrest d hd
    · rw [List.mem_singleton.mp hd]
      unfold isNameChar Char.isAlphanum at hc
      simp only [Bool.or_eq_true] at hc
      rcases hc with (hletter | hdigit) | hunderscore
      · exact Or.inl (startsName_of_isNameStart (by rw [isNameStart, hletter, Bool.true_or]))
      · unfold Char.isDigit at hdigit
        simp only [Bool.and_eq_true, decide_eq_true_eq] at hdigit
        exact Or.inr hdigit
      · exact Or.inl (Or.inr (Or.inr (beq_iff_eq.mp hunderscore)))

theorem IsGap.keep {gap : List Char} (h : IsGap gap) {c : Char} (hc : isSpace c = true) :
    IsGap (gap ++ [c]) := by
  intro d hd
  rcases List.mem_append.mp hd with hd | hd
  · exact h d hd
  · rw [List.mem_singleton.mp hd]
    simpa [isSpace, or_assoc] using hc

theorem Spells.append {quote : Char} {raw value more rest : List Char}
    (h : Spells quote raw value) (hmore : Spells quote more rest) :
    Spells quote (raw ++ more) (value ++ rest) := by
  induction h with
  | nil => exact hmore
  | plain hslash hquote _ ih => exact .plain hslash hquote ih
  | escaped _ ih => exact .escaped ih
  | pair hquote _ ih => exact .pair hquote ih

namespace Scanner

variable {charset : Charset}

/-- What has been read since the bracket that opened a tag, by the mode it leads to. -/
inductive ReadAs (charset : Charset) : List Char → Mode → Prop where
  | bracket : ReadAs charset [] .afterLess
  | name {letters : List Char} (hname : IsName (textOf letters)) :
      ReadAs charset letters.reverse (.tagName letters)
  | between (t : TagText) (hopen : t.IsOpen) :
      ReadAs charset t.text (.beforeName (t.openTag charset))
  | attributeName (t : TagText) (hopen : t.IsOpen) {letters : List Char}
      (hname : IsName (textOf letters)) :
      ReadAs charset (t.text ++ letters.reverse) (.attributeName (t.openTag charset) letters)
  | beforeEquals (t : TagText) (hopen : t.IsOpen) {name : String} (hname : IsName name)
      {before : List Char} (hbefore : IsGap before) :
      ReadAs charset (t.text ++ (name.toList ++ before))
        (.beforeValue (t.openTag charset) name false)
  | behindEquals (t : TagText) (hopen : t.IsOpen) {name : String} (hname : IsName name)
      {before after : List Char} (hbefore : IsGap before) (hafter : IsGap after) :
      ReadAs charset (t.text ++ (name.toList ++ (before ++ '=' :: after)))
        (.beforeValue (t.openTag charset) name true)
  | value (t : TagText) (hopen : t.IsOpen) {name : String} (hname : IsName name)
      {before after : List Char} (hbefore : IsGap before) (hafter : IsGap after)
      {quote : Char} (hquote : quote = '"' ∨ quote = '\'') (escaped : Bool)
      {raw pending : List Char} (hspells : Spells quote raw pending.reverse) :
      ReadAs charset
        (t.text ++ (name.toList ++ (before ++ '=' :: (after ++ quote ::
          (raw ++ if escaped then ['\\'] else [])))))
        (.value (t.openTag charset) name quote escaped pending)
  | slash (t : TagText) : ReadAs charset (t.text ++ ['/']) (.afterSlash (t.openTag charset))

/-- Whether a mode is within what may be an opening tag. -/
def isOpening : Mode → Bool
  | .afterLess | .tagName _ | .beforeName _ | .attributeName _ _ | .beforeValue _ _ _
  | .value _ _ _ _ _ | .afterSlash _ => true
  | _ => false

/-- What a character does behind a bracket that opened a tag. -/
inductive TagStep (charset : Charset) (text : List Char) (s : Scanner) (c : Char) (next : Step) :
    Prop where
  | readsOn (hsilent : next.events = []) (hread : ReadAs charset (text ++ [c]) next.mode)
  | closes (t : TagText) (htext : text = t.text) (hc : c = '>')
      (hnext : next = s.openElement (t.openTag charset))
  | closesEmpty (t : TagText) (htext : text = t.text ++ ['/']) (hc : c = '>')
      (hnext : next = s.emptyElement (t.openTag charset))
  /-- It is the bracket of something else. -/
  | leaves (hsilent : next.events = []) (hmode : isOpening next.mode = false)

/-- One more character of the gap at the end. -/
theorem ReadAs.gap (t : TagText) {c : Char} (hc : isSpace c = true) :
    ReadAs charset (t.text ++ [c]) (.beforeName (t.openTag charset)) := by
  have hopen : (t.withGap (t.gap ++ [c]) (t.isGap.keep hc)).IsOpen := by
    intro _
    simp [TagText.withGap]
  have hread : ReadAs charset _ _ := .between _ hopen
  simpa [TagText.withGap, TagText.text, TagText.openTag] using hread

/-- The quote that ends a value. -/
theorem ReadAs.attribute (t : TagText) (hopen : t.IsOpen) (a : AttributeText)
    (hgap : a.gap = t.gap) :
    ReadAs charset
      (t.text ++ (a.name.toList ++
        (a.before ++ '=' :: (a.after ++ a.quote :: (a.raw ++ [a.quote])))))
      (.beforeName ((t.openTag charset).adding (a.entry charset))) := by
  have hopen' : (t.adding hopen a hgap).IsOpen := by
    intro hnone
    exact absurd hnone (by simp [TagText.adding])
  have hread : ReadAs charset _ _ := .between _ hopen'
  simpa [TagText.adding, TagText.text, TagText.openTag, AttributeText.text, hgap, OpenTag.adding,
    Attributes.insertAll_append_single] using hread

/-- In a tag, a character leads from what has been read to what has been read with it. -/
theorem ReadAs.advance {text : List Char} {s : Scanner} (h : ReadAs charset text s.mode) {c : Char}
    {next : Step} (hadvance : s.advance charset c = .ok next) :
    TagStep charset text s c next := by
  obtain ⟨mode, line, tags⟩ := s
  dsimp only at h
  unfold Scanner.advance at hadvance
  cases h with
  | bracket =>
      dsimp only at hadvance
      split_ifs at hadvance with _ _ _ hstart
      · cases hadvance; exact .leaves rfl rfl
      · cases hadvance; exact .leaves rfl rfl
      · cases hadvance; exact .leaves rfl rfl
      · cases hadvance; exact .readsOn rfl (.name (isName_single hstart))
  | @name letters hname =>
      have htext : letters.reverse = (TagText.named _ hname).text := by
        simp [TagText.named, TagText.text, textOf]
      dsimp only at hadvance
      split_ifs at hadvance with hkeep hspace hslash hclose
      · cases hadvance
        refine .readsOn rfl ?_
        rw [← List.reverse_cons]
        exact .name (hname.keep hkeep)
      · cases hadvance
        rw [htext]
        exact .readsOn rfl (.gap _ hspace)
      · cases hadvance
        rw [htext, hslash]
        exact .readsOn rfl (.slash _)
      · cases hadvance
        exact .closes _ htext hclose rfl
  | between t hopen =>
      dsimp only at hadvance
      split_ifs at hadvance with hspace hslash hclose hstart
      · cases hadvance
        exact .readsOn rfl (.gap t hspace)
      · cases hadvance
        rw [hslash]
        exact .readsOn rfl (.slash t)
      · cases hadvance
        exact .closes t rfl hclose rfl
      · cases hadvance
        exact .readsOn rfl (.attributeName t hopen (isName_single hstart))
  | @attributeName t hopen letters hname =>
      have htext : letters.reverse = (textOf letters).toList := String.toList_ofList.symm
      dsimp only at hadvance
      split_ifs at hadvance with hkeep hequals hspace
      · cases hadvance
        refine .readsOn rfl ?_
        rw [List.append_assoc, ← List.reverse_cons]
        exact .attributeName t hopen (hname.keep hkeep)
      · cases hadvance
        rw [htext, hequals]
        refine .readsOn rfl ?_
        have hread : ReadAs charset _ _ :=
          .behindEquals t hopen hname (List.forall_mem_nil _) (List.forall_mem_nil _)
        simpa using hread
      · cases hadvance
        rw [htext]
        refine .readsOn rfl ?_
        have hread : ReadAs charset _ _ :=
          .beforeEquals t hopen hname (IsGap.keep (List.forall_mem_nil _) hspace)
        simpa using hread
  | @beforeEquals t hopen name hname before hbefore =>
      simp only [and_true, Bool.false_eq_true, and_false, if_false] at hadvance
      split_ifs at hadvance with hspace hequals
      · cases hadvance
        refine .readsOn rfl ?_
        rw [List.append_assoc, List.append_assoc]
        exact .beforeEquals t hopen hname (hbefore.keep hspace)
      · cases hadvance
        refine .readsOn rfl ?_
        rw [hequals, List.append_assoc, List.append_assoc]
        exact .behindEquals t hopen hname hbefore (List.forall_mem_nil _)
  | @behindEquals t hopen name hname before after hbefore hafter =>
      simp only [and_true, Bool.true_eq_false, and_false, if_false] at hadvance
      split_ifs at hadvance with hspace hquote
      · cases hadvance
        refine .readsOn rfl ?_
        have hread : ReadAs charset _ _ :=
          .behindEquals t hopen hname hbefore (hafter.keep hspace)
        simpa using hread
      · cases hadvance
        refine .readsOn rfl ?_
        have hread : ReadAs charset _ (.value (t.openTag charset) name c false []) :=
          .value t hopen hname hbefore hafter hquote false .nil
        simpa using hread
  | @value t hopen name hname before after hbefore hafter quote hquote escaped raw pending hspells =>
      -- what is kept of the character spells on, with a backslash that is pending
      have further (escaped' : Bool) {more rest : List Char} (hmore : Spells quote more rest)
          (hsame : (if escaped then ['\\'] else []) ++ [c] =
            more ++ if escaped' then ['\\'] else []) :
          ReadAs charset
            (t.text ++ (name.toList ++ (before ++ '=' :: (after ++ quote ::
              (raw ++ if escaped then ['\\'] else [])))) ++ [c])
            (.value (t.openTag charset) name quote escaped' (rest.reverse ++ pending)) := by
        have hspells' : Spells quote (raw ++ more) (rest.reverse ++ pending).reverse := by
          rw [List.reverse_append, List.reverse_reverse]
          exact hspells.append hmore
        have hread : ReadAs charset _ (.value (t.openTag charset) name quote escaped' _) :=
          .value t hopen hname hbefore hafter hquote escaped' hspells'
        simpa [hsame] using hread
      cases escaped with
      | true =>
          simp only [if_true] at hadvance
          split_ifs at hadvance with hc
          · cases hadvance
            subst hc
            exact .readsOn rfl (further false (.escaped .nil) rfl)
          · cases hadvance
            exact .readsOn rfl (further false (.pair hc .nil) rfl)
      | false =>
          simp only [Bool.false_eq_true, if_false] at hadvance
          split_ifs at hadvance with hslash hc
          · cases hadvance
            subst hslash
            exact .readsOn rfl (further true .nil rfl)
          · cases hadvance
            subst hc
            have hread : ReadAs charset _ _ :=
              .attribute t hopen ⟨t.gap, name, before, after, c, raw, pending.reverse, t.isGap,
                hname, hbefore, hafter, hquote, hspells⟩ rfl
            refine .readsOn rfl ?_
            simpa [AttributeText.entry, OpenTag.adding, textOf] using hread
          · cases hadvance
            exact .readsOn rfl (further false (.plain hslash hc .nil) rfl)
  | slash t =>
      dsimp only at hadvance
      split_ifs at hadvance with hclose
      cases hadvance
      exact .closesEmpty t rfl hclose rfl

theorem closeElement_outside {s : Scanner} {name : String} {next : Step}
    (h : s.closeElement name = .ok next) :
    next.mode = .content [] ∧ next.events = [.finish name s.line] := by
  unfold closeElement at h
  split at h
  · cases h
  · split_ifs at h
    cases h
    exact ⟨rfl, rfl⟩

/-- Outside of opening tags no element starts, and only a bracket leads into a tag. -/
theorem outside_of_advance {s : Scanner} (hs : isOpening s.mode = false) {c : Char} {next : Step}
    (h : s.advance charset c = .ok next) :
    (isOpening next.mode = true → c = '<' ∧ next.mode = .afterLess) ∧
      ∀ name attributes line, .start name attributes line ∉ next.events := by
  have hclosing {name : String} (hclose : s.closeElement name = .ok next) :
      (isOpening next.mode = true → c = '<' ∧ next.mode = .afterLess) ∧
        ∀ name attributes line, .start name attributes line ∉ next.events := by
    obtain ⟨hmode, hevents⟩ := closeElement_outside hclose
    rw [hmode, hevents]
    exact ⟨Bool.noConfusion, by simp⟩
  have hsilent (mode : Mode) (hmode : isOpening mode = false) :
      (isOpening mode = true → c = '<' ∧ mode = .afterLess) ∧
        ∀ name attributes line, Event.start name attributes line ∉ [] :=
    ⟨fun hopening => absurd hopening (by rw [hmode]; decide), fun _ _ _ => List.not_mem_nil⟩
  obtain ⟨mode, line, tags⟩ := s
  unfold Scanner.advance at h
  cases mode <;> try cases hs
  case content pending =>
    dsimp only at h
    split_ifs at h with hc
    · cases h
      refine ⟨fun _ => ⟨hc, rfl⟩, ?_⟩
      intro name attributes start hmem
      obtain ⟨content, htext⟩ := exists_eq_text_of_mem_flush hmem
      cases htext
    · cases h
      exact hsilent _ rfl
  case closeName name =>
    dsimp only at h
    split_ifs at h
    · cases h; exact hsilent _ rfl
    · cases h; exact hsilent _ rfl
    · exact hclosing h
  case afterCloseName name =>
    dsimp only at h
    split_ifs at h
    · exact hclosing h
    · cases h; exact hsilent _ rfl
  all_goals
    dsimp only at h
    split_ifs at h <;> cases h <;> exact hsilent _ rfl

theorem Reads.last {s t : Scanner} {text : List Char} {c : Char} {events : List Event}
    (h : Reads charset s (text ++ [c]) events t) :
    ∃ before last mid, events = before ++ last ∧ Reads charset s text before mid ∧
      mid.step charset c = .ok (t, last) := by
  induction text generalizing s events with
  | nil =>
      cases h with
      | @cons _ next _ _ _ first later hstep hrest =>
          cases hrest
          exact ⟨[], first, s, by simp, .nil s, hstep⟩
  | cons d text ih =>
      cases h with
      | @cons _ next _ _ _ first later hstep hrest =>
          obtain ⟨before, last, mid, rfl, hreads, hlast⟩ := ih hrest
          exact ⟨first ++ before, last, mid, by rw [List.append_assoc], .cons hstep hreads, hlast⟩

theorem advance_of_step {s t : Scanner} {c : Char} {events : List Event}
    (h : s.step charset c = .ok (t, events)) :
    ∃ next, s.advance charset c = .ok next ∧ t.mode = next.mode ∧ events = next.events := by
  unfold Scanner.step at h
  split at h
  · cases h
  · rename_i next hadvance
    cases h
    exact ⟨next, hadvance, rfl, rfl⟩

/-- Behind a bracket that opened a tag, all that has been read since is known. -/
theorem exists_bracket {text : List Char} {events : List Event} {t : Scanner}
    (h : Reads charset {} text events t) (hopening : isOpening t.mode = true) :
    ∃ front inner s, text = front ++ '<' :: inner ∧ Reads charset {} (front ++ ['<']) events s ∧
      s.mode = .afterLess ∧ Reads charset s inner [] t ∧ ReadAs charset inner t.mode := by
  induction text using List.reverseRecOn generalizing events t with
  | nil =>
      cases h
      cases hopening
  | append_singleton text c ih =>
      obtain ⟨before, last, mid, rfl, hreads, hstep⟩ := h.last
      obtain ⟨next, hadvance, hmode, hlast⟩ := advance_of_step hstep
      rw [hmode] at hopening
      cases hwithin : isOpening mid.mode with
      | false =>
        obtain ⟨rfl, hless⟩ := (outside_of_advance hwithin hadvance).1 hopening
        rw [← hmode] at hless
        exact ⟨text, [], t, rfl, h, hless, .nil t, hless ▸ .bracket⟩
      | true =>
        obtain ⟨front, inner, s, rfl, hfront, hless, hinner, hread⟩ := ih hreads hwithin
        cases hread.advance hadvance with
        | readsOn hsilent hread =>
            rw [← hlast] at hsilent
            subst hsilent
            rw [List.append_nil]
            have hon : Reads charset s (inner ++ [c]) ([] ++ ([] ++ [])) t :=
              hinner.append (.cons hstep (.nil t))
            exact ⟨front, inner ++ [c], s, by simp, hfront, hless, hon, hmode ▸ hread⟩
        | closes tag _ _ hnext => rw [hnext] at hopening; cases hopening
        | closesEmpty tag _ _ hnext => rw [hnext] at hopening; cases hopening
        | leaves _ hmode => rw [hopening] at hmode; cases hmode

/-- In a text, the element `name` is handed over behind `earlier` with what its own tag says. All of
`earlier` is completed up to the bracket that opens the tag; from there on nothing is, up to the
bracket that closes it. -/
structure StartsWith (charset : Charset) (text : List Char) (earlier : List Event) (name : String)
    (attributes : Attributes) (line : Nat) (tag : TagText) : Prop where
  named : name = tag.name
  inserted : attributes = .insertAll {} (tag.attributes.map (AttributeText.entry charset))
  written : ∃ front slash after s t next more,
    text = front ++ '<' :: (tag.text ++ slash ++ '>' :: after) ∧ (slash = [] ∨ slash = ['/']) ∧
    Reads charset {} (front ++ ['<']) earlier s ∧ s.mode = .afterLess ∧
    Reads charset s (tag.text ++ slash) [] t ∧
    t.step charset '>' = .ok (next, .start name attributes line :: more)

theorem start_of_prefix {left events rest : List Event} {event first : Event}
    (h : left ++ [event] <+: events) (hevents : events = first :: rest) (hrest : event ∉ rest) :
    left = [] ∧ event = first := by
  subst hevents
  cases left with
  | nil => exact ⟨rfl, (List.cons_prefix_cons.mp h).1⟩
  | cons other left =>
      have hlater := (List.cons_prefix_cons.mp h).2
      exact absurd (hlater.subset (by simp)) hrest

theorem exists_startsWith {before after : List Char} {earlier : List Event} {name : String}
    {attributes : Attributes} {line : Nat}
    (h : Completes charset {} earlier (.start name attributes line) before after) :
    ∃ tag, StartsWith charset (before ++ after) earlier name attributes line tag := by
  obtain ⟨-, hclose⟩ := h.line_eq
  obtain ⟨after, rfl⟩ := List.head?_eq_some_iff.mp hclose
  obtain ⟨done, more, t, hreads, ⟨next, hstep⟩, ⟨left, rfl⟩, hevent⟩ := h
  rw [List.append_assoc, List.prefix_append_right_inj] at hevent
  obtain ⟨outcome, hadvance, -, rfl⟩ := advance_of_step hstep
  have hstart : .start name attributes line ∈ outcome.events := hevent.subset (by simp)
  cases hwithin : isOpening t.mode with
  | false => exact absurd hstart ((outside_of_advance hwithin hadvance).2 _ _ _)
  | true =>
    obtain ⟨front, inner, s, rfl, hfront, hless, hinner, hread⟩ := exists_bracket hreads hwithin
    have hwritten (tag : TagText) (slash : List Char) (rest : List Event)
        (hinner' : inner = tag.text ++ slash) (hslash : slash = [] ∨ slash = ['/'])
        (hevents : outcome.events =
          .start tag.name (tag.openTag charset).attributes t.line :: rest)
        (hrest : .start name attributes line ∉ rest) :
        ∃ tag, StartsWith charset (front ++ '<' :: inner ++ '>' :: after) (done ++ left) name
          attributes line tag := by
      obtain ⟨rfl, hsame⟩ := start_of_prefix hevent hevents hrest
      rw [hevents, ← hsame] at hstep
      cases hsame
      subst hinner'
      rw [List.append_nil]
      exact ⟨tag, rfl, rfl, front, slash, after, s, t, next, rest, by simp, hslash, hfront, hless,
        hinner, hstep⟩
    cases hread.advance hadvance with
    | readsOn hsilent _ => rw [hsilent] at hstart; cases hstart
    | closes tag htext _ hnext =>
        exact hwritten tag [] [] (by rw [htext, List.append_nil]) (Or.inl rfl) (by rw [hnext]; rfl)
          List.not_mem_nil
    | closesEmpty tag htext _ hnext =>
        exact hwritten tag ['/'] [.finish tag.name t.line] htext (Or.inr rfl) (by rw [hnext]; rfl)
          (by simp)
    | leaves hsilent _ => rw [hsilent] at hstart; cases hstart

end Scanner

open Scanner

variable {σ ε : Type}

/-- Attributes are an ordered map. Whatever is inserted, every name is kept once, at the place of
its first insertion and with the value of its last; a name is contained if it has a value, and the
size is the number of different names. An element is handed over with the attributes of its own
tag, inserted in the order in which they stand there: behind the events that are completed up to the
bracket that opens the tag, and with nothing of other tags. A scan whose tags share all buffers
leaves nothing in them either. -/
theorem attributes_are_ordered (charset : Charset) (receive : Receiver σ ε) (bytes : List UInt8)
    (state : σ) :
    (∀ inserted, Attributes.IsMapOf inserted (.insertAll {} inserted)) ∧
    (∀ earlier name attributes line later,
      (parseLogged charset receive bytes state).1 =
        earlier ++ .start name attributes line :: later →
      ∃ tag, StartsWith charset (Text.decodeBytes bytes) earlier name attributes line tag) ∧
    Buffers.run charset {} (Text.decodeBytes bytes) = scan charset (Text.decodeBytes bytes) := by
  refine ⟨Attributes.isMapOf_insertAll, ?_, Buffers.run_eq_scan charset _⟩
  intro earlier name attributes line later hlog
  obtain ⟨before, after, htext, hcompletes⟩ :=
    exists_completes_of_log charset receive bytes state hlog
  rw [htext]
  exact exists_startsWith hcompletes

end PanelSkin.Markup
