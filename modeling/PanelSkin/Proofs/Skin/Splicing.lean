import PanelSkin.Proofs.Markup.RoundTrip
import PanelSkin.Proofs.Markup.Splicing
import PanelSkin.Proofs.Skin.Includes

/-!
Including as splicing. The text of a skin file in which every include tag is replaced by the
contents of the file it names is read to the same skin. The two readings are followed character
by character: that of the files, with a scan for each of them, and that of the text, with one
scan for all of it. They agree but for what the second has still to come to, the characters of a
tag, and for the text that it has not taken yet; `Follows` says how.
-/

namespace PanelSkin

open Markup (Event Mode Piece Scanner Accepts EndsTag)

namespace Environment

def characters (env : Environment) (s : Source) : Option (List Char) :=
  (env.skinFile s.path).toOption.map Text.decodeBytes

/-- The text of a file with every include tag replaced by the text of the file it names. Files can
nest `depth` deep. -/
def splice (env : Environment) : Nat → Source → Option (List Char)
  | 0, s => (env.characters s).bind (Scanner.splice (fun _ => none) {} [])
  | depth + 1, s =>
    (env.characters s).bind
      (Scanner.splice (fun file => env.splice depth (s.included file)) {} [])

/-- What is put in the place of the include tags of a file, by the files they name. -/
def contents (env : Environment) (s : Source) : Nat → String → Option (List Char)
  | 0, _ => none
  | depth + 1, file => env.splice depth (s.included file)

theorem splice_eq (env : Environment) (depth : Nat) (s : Source) : env.splice depth s =
    (env.characters s).bind (Scanner.splice (env.contents s depth) {} []) := by
  cases depth <;> rfl

/-- The files that a file includes, itself or through others, can be put in the places of their
include elements. -/
structure Spliceable (env : Environment) (main : Source) : Prop where
  charset : env.host.charset = id
  /-- Every include element is a single tag. -/
  single : ∀ s text, Relation.ReflTransGen env.Includes main s → env.characters s = some text →
    Scanner.neverOpens "include" {} text = true
  start : ∀ s text, Relation.TransGen env.Includes main s → env.characters s = some text →
    text.head? = some '<'
  ending : ∀ s text, Relation.TransGen env.Includes main s → env.characters s = some text →
    text.getLast? = some '>'

/-- A file can be put in the place of an include tag, after what it includes has been. -/
structure Insertable (env : Environment) (s : Source) : Prop where
  spliceable : env.Spliceable s
  start : ∀ text, env.characters s = some text → text.head? = some '<'
  ending : ∀ text, env.characters s = some text → text.getLast? = some '>'

theorem Spliceable.included {env : Environment} {s t : Source} (h : env.Spliceable s)
    (hst : env.Includes s t) : env.Insertable t where
  spliceable :=
    { charset := h.charset
      single := fun r text hr => h.single r text (hr.head hst)
      start := fun r text hr => h.start r text (hr.head hst)
      ending := fun r text hr => h.ending r text (hr.head hst) }
  start text := h.start t text (.single hst)
  ending text := h.ending t text (.single hst)

end Environment

namespace Draft

theorem addText_empty (d : Draft) : d.addText "" = d := by
  unfold addText
  split <;> simp

theorem addText_addText (d : Draft) (content more : String) :
    (d.addText content).addText more = d.addText (content ++ more) := by
  obtain ⟨header, displays, display, opened, text, variableTable, fontTable, cells, shelf⟩ := d
  unfold addText
  cases opened with
  | nil => rfl
  | cons w outer =>
      cases w with
      | leaf style kind => cases kind <;> simp [String.append_assoc]
      | _ => rfl

/-- The draft once the characters that are pending have been taken. -/
def settled (d : Draft) (pending : List Char) : Draft :=
  d.addText (String.ofList (Markup.decodeEntities pending.reverse))

@[simp] theorem settled_nil (d : Draft) : d.settled [] = d := d.addText_empty

/-- Characters behind the end of a tag can be taken after the others or together with them. -/
theorem settled_append (d : Draft) {before : List Char} (h : EndsTag before)
    (pending : List Char) : d.settled (pending ++ before) = (d.settled before).settled pending := by
  unfold settled
  rw [Markup.decodeEntities_reverse_append h, addText_addText, String.ofList_append]

end Draft

namespace Loading

variable {l : Loading} {depth : Nat} {directory : FilePath} {d d' : Draft}

theorem start_outermost {included : Bool} {e : Element}
    (h : (l.start included e).run d = .ok ((), d')) : (l.start false e).run d = .ok ((), d') := by
  cases included with
  | false => exact h
  | true =>
      rw [start, Reading.get_bind_run] at h ⊢
      by_cases hskin : e.tag = "skin"
      · rw [if_pos hskin, if_pos (by simp)] at h
        cases h
      · rwa [if_neg hskin] at h ⊢

/-- An event that no include element starts is taken on any line, and in the outermost file if in
any. -/
theorem receiver_of_receive {event other : Event} (hplain : event.include? = none)
    (hpiece : other.piece = event.piece)
    (h : l.receive depth directory event d = .ok d') : l.receiver other d = .ok d' := by
  have hrun := (receive_of_plain_eq_ok hplain).mp h
  have hother : other.include? = none ∧ (l.handle false other).run d = .ok ((), d') := by
    cases event <;> cases other <;> cases hpiece
    · exact ⟨hplain, start_outermost hrun⟩
    · exact ⟨rfl, hrun⟩
    · exact ⟨rfl, hrun⟩
  refine (receive_of_plain_eq_ok hother.1).mpr ?_
  rw [bne_self_eq_false]
  exact hother.2

theorem accepts_of_plain {events others : List Event}
    (hplain : ∀ event ∈ events, event.include? = none)
    (hpieces : others.map Event.piece = events.map Event.piece)
    (h : Accepts (l.receive depth directory) d events d') : Accepts l.receiver d others d' := by
  induction events generalizing others d with
  | nil =>
      obtain rfl := List.map_eq_nil_iff.mp hpieces
      exact h
  | cons event events ih =>
      obtain ⟨other, later, rfl, hpiece, hlater⟩ := List.map_eq_cons_iff.mp hpieces
      obtain ⟨hfirst, hrest⟩ := List.forall_mem_cons.mp hplain
      obtain ⟨next, htaken, hevents⟩ := Markup.accepts_cons.mp h
      exact Markup.accepts_cons.mpr
        ⟨next, receiver_of_receive hfirst hpiece htaken, ih hrest hlater hevents⟩

theorem includedPath?_of_plain {events : List Event}
    (h : ∀ event ∈ events, event.include? = none) : Markup.includedPath? events = none := by
  unfold Markup.includedPath?
  split
  · rename_i tag attributes line closed last
    have htag : tag ≠ "include" := by simpa [Event.include?] using h _ List.mem_cons_self
    rw [if_neg htag]
  · rfl

theorem flush_plain (line : Nat) (pending : List Char) :
    ∀ event ∈ Scanner.flush id line pending, event.include? = none := by
  unfold Scanner.flush
  split <;> simp [Event.include?]

/-- Where no include element is left open, a step completes no event of one, or both. -/
theorem plain_or_include {s : Scanner} {c : Char} {outcome : Scanner.Step}
    (h : s.advance id c = .ok outcome) (hopen : "include" ∉ outcome.nesting) :
    (∀ event ∈ outcome.events, event.include? = none) ∨
      ∃ tag : Markup.OpenTag, tag.name = "include" ∧ outcome = s.emptyElement tag := by
  cases Scanner.advance_effect s c outcome h with
  | silent mode => exact .inl (by simp)
  | textEnds pending => exact .inl (flush_plain s.line pending)
  | opens tag =>
      have hname : tag.name ≠ "include" := fun hname => hopen (hname ▸ List.mem_cons_self)
      exact .inl (by simp [Scanner.openElement, Event.include?, hname])
  | opensAndCloses tag =>
      by_cases hname : tag.name = "include"
      · exact .inr ⟨tag, hname, rfl⟩
      · exact .inl (by simp [Scanner.emptyElement, Event.include?, hname])
  | closes name outer hnesting => exact .inl (by simp [Event.include?])

theorem accepts_flush {line : Nat} {pending : List Char} :
    Accepts (l.receive depth directory) d (Scanner.flush id line pending) d' ↔
      d' = d.settled pending := by
  unfold Scanner.flush
  cases pending with
  | nil => simp [Markup.accepts_nil]
  | cons c pending =>
      simp [Markup.accepts_cons, Markup.accepts_nil, receive, Draft.settled, eq_comm]

/-- How far the reading of a text has come. -/
structure Position where
  mode : Mode
  nesting : List String
  draft : Draft

/-- Reading a text without includes leads from one position to another, on whatever line it
starts. -/
def Leads (l : Loading) (text : List Char) (x y : Position) : Prop :=
  ∃ said, Markup.Leads (x.mode, x.nesting) text said (y.mode, y.nesting) ∧
    ∀ events, events.map Event.piece = said → Accepts l.receiver x.draft events y.draft

section Leads

variable {text more : List Char} {x y z : Position}

theorem Leads.refl (x : Position) : l.Leads [] x x := by
  refine ⟨[], .refl _, ?_⟩
  intro events hevents
  rw [List.map_eq_nil_iff.mp hevents, Markup.accepts_nil]

theorem Leads.append (hfirst : l.Leads text x y) (hmore : l.Leads more y z) :
    l.Leads (text ++ more) x z := by
  obtain ⟨said, hsaid, htaken⟩ := hfirst
  obtain ⟨later, hlater, hrest⟩ := hmore
  refine ⟨said ++ later, hsaid.append hlater, ?_⟩
  intro events hevents
  obtain ⟨events, others, rfl, hsame, hothers⟩ := List.map_eq_append_iff.mp hevents
  exact Markup.accepts_append.mpr ⟨y.draft, htaken events hsame, hrest others hothers⟩

theorem Leads.of_advance {c : Char} {said : List Piece}
    (hadvance : ∀ line, ∃ events, Scanner.advance id ⟨x.mode, line, x.nesting⟩ c =
      .ok ⟨y.mode, y.nesting, events⟩ ∧ events.map Event.piece = said)
    (htaken : ∀ events, events.map Event.piece = said → Accepts l.receiver x.draft events y.draft) :
    l.Leads [c] x y := by
  refine ⟨said, ?_, htaken⟩
  simpa using Markup.Leads.saying said hadvance (.refl (y.mode, y.nesting))

theorem Leads.of_silent {c : Char} {mode : Mode}
    (hadvance : ∀ line,
      Scanner.advance id ⟨x.mode, line, x.nesting⟩ c = .ok ⟨mode, x.nesting, []⟩) :
    l.Leads [c] x ⟨mode, x.nesting, x.draft⟩ := by
  refine .of_advance (fun line => ⟨[], hadvance line, rfl⟩) ?_
  intro events hevents
  rw [List.map_eq_nil_iff.mp hevents, Markup.accepts_nil]

theorem leads_less (pending : List Char) (tags : List String) (d : Draft) :
    l.Leads ['<'] ⟨.content pending, tags, d⟩ ⟨.afterLess, tags, d.settled pending⟩ := by
  have htaken : Accepts l.receiver d (Scanner.flush id 1 pending) (d.settled pending) :=
    accepts_flush.mpr rfl
  refine .of_advance (fun line => ⟨_, rfl, Markup.flush_pieces line pending⟩) ?_
  intro events hevents
  rw [← Markup.flush_pieces 1] at hevents
  exact accepts_of_plain (flush_plain 1 pending) hevents htaken

end Leads

/-- A text does what a file does: behind any characters that are pending, and inside of any other
elements. -/
def StandsFor (l : Loading) (text : List Char) (d d' : Draft) : Prop :=
  ∀ outer pending around, around.settled pending = d → ∃ pending' around',
    l.Leads text ⟨.content pending, outer, around⟩ ⟨.content pending', outer, around'⟩ ∧
    EndsTag pending' ∧ around'.settled pending' = d'

/-- There are contents for the files that are included by these events of file `s`. -/
def Inserts (l : Loading) (contents : String → Option (List Char)) (depth : Nat) (s : Source)
    (events : List Event) : Prop :=
  ∀ attributes line file inner d d', .start "include" attributes line ∈ events →
    attributes.get? "path" = some file → depth = inner + 1 →
    l.ReadsFile inner (s.included file) d d' →
    ∃ text, contents file = some text ∧ l.StandsFor text d d'

/-- The readings of a file and of the text that it has become a part of. -/
structure Tandem where
  scanner : Scanner
  draft : Draft
  /-- The characters of the tag in which the file is being read, the last in front. -/
  markup : List Char
  /-- What the text has not taken yet of the characters between tags, the last in front. -/
  pending : List Char
  around : Draft

/-- Where the reading of the text has come, with the elements that are open around the file. -/
def Tandem.position (x : Tandem) (outer : List String) : Position :=
  ⟨.content x.pending, x.scanner.nesting ++ outer, x.around⟩

/-- The two readings agree. -/
inductive Follows (l : Loading) (outer : List String) (x : Tandem) : Prop where
  /-- Between tags, but for the characters at the end of a file that was included just before. -/
  | content {pending before : List Char} (hmode : x.scanner.mode = .content pending)
      (hmarkup : x.markup = []) (hpending : x.pending = pending ++ before)
      (hends : EndsTag before) (hdraft : x.around.settled before = x.draft)
  /-- Inside a tag, but for the characters of the tag. -/
  | inside (hmode : x.scanner.mode.isContent = false)
      (hdraft : x.around.settled x.pending = x.draft)
      (hleads : l.Leads x.markup.reverse (x.position outer)
        ⟨x.scanner.mode, x.scanner.nesting ++ outer, x.draft⟩)

/-- Over some characters of the file, what the text has in their place leads it from one position
to another. -/
def Passes (l : Loading) (outer : List String) (contents : String → Option (List Char))
    (read : List Char) (x y : Tandem) : Prop :=
  ∃ text, l.Leads text (x.position outer) (y.position outer) ∧
    ∀ rest, x.scanner.splice contents x.markup (read ++ rest) =
      (y.scanner.splice contents y.markup rest).map (text ++ ·)

/-- Once the file's reading has come over some characters to a place and a draft, the two readings
agree again. -/
def KeepsUp (l : Loading) (outer : List String) (contents : String → Option (List Char))
    (read : List Char) (x : Tandem) (t : Scanner) (d : Draft) : Prop :=
  ∃ y : Tandem, y.scanner = t ∧ y.draft = d ∧ l.Passes outer contents read x y ∧
    l.Follows outer y

section Tandem

variable {outer : List String} {contents : String → Option (List Char)} {x y z : Tandem}
  {read more : List Char}

theorem Passes.refl (x : Tandem) : l.Passes outer contents [] x x := by
  refine ⟨[], .refl _, ?_⟩
  intro rest
  simp

theorem Passes.append (hfirst : l.Passes outer contents read x y)
    (hmore : l.Passes outer contents more y z) : l.Passes outer contents (read ++ more) x z := by
  obtain ⟨text, hleads, hsplice⟩ := hfirst
  obtain ⟨later, hlater, hrest⟩ := hmore
  refine ⟨text ++ later, hleads.append hlater, ?_⟩
  intro rest
  rw [List.append_assoc, hsplice, hrest, Option.map_map]
  simp [Function.comp_def]

variable {c : Char} {next : Scanner} {events : List Event}

/-- A character with which no tag ends is held back, if it stands in one. -/
theorem Passes.held (hstep : x.scanner.step id c = .ok (next, events))
    (hplain : ∀ event ∈ events, event.include? = none) (hmode : next.mode.isContent = false)
    (hnesting : next.nesting = x.scanner.nesting) (d : Draft) :
    l.Passes outer contents [c] x ⟨next, d, c :: x.markup, x.pending, x.around⟩ := by
  refine ⟨[], ?_, ?_⟩
  · simp only [Tandem.position, hnesting]
    exact .refl _
  · intro rest
    simp [Scanner.splice_of_inside hstep (includedPath?_of_plain hplain) hmode]

theorem Passes.through (hstep : x.scanner.step id c = .ok (next, events))
    (hplain : ∀ event ∈ events, event.include? = none) (hmode : next.mode.isContent = true)
    {pending : List Char} {d around : Draft}
    (hleads : l.Leads (c :: x.markup).reverse (x.position outer)
      ⟨.content pending, next.nesting ++ outer, around⟩) :
    l.Passes outer contents [c] x ⟨next, d, [], pending, around⟩ :=
  ⟨_, hleads, Scanner.splice_of_content hstep (includedPath?_of_plain hplain) hmode x.markup⟩

/-- A file that is included starts with a tag, with which the text takes what is pending. -/
theorem tandem_begins {pending : List Char} {around : Draft}
    (hdraft : around.settled pending = d) :
    l.KeepsUp outer contents ['<'] ⟨{}, d, [], pending, around⟩ ⟨.afterLess, 1, []⟩ d := by
  have hstep : Scanner.step id {} '<' = .ok (⟨.afterLess, 1, []⟩, []) := rfl
  refine ⟨⟨⟨.afterLess, 1, []⟩, d, ['<'], pending, around⟩, rfl, rfl, ?_, .inside rfl hdraft ?_⟩
  · exact Passes.held (x := ⟨{}, d, [], pending, around⟩) hstep (List.forall_mem_nil _) rfl rfl d
  · rw [← hdraft]
    exact leads_less pending outer around

theorem Follows.less_step {pending before : List Char}
    (hmode : x.scanner.mode = .content pending) (hmarkup : x.markup = [])
    (hpending : x.pending = pending ++ before) (hends : EndsTag before)
    (hdraft : x.around.settled before = x.draft)
    (hstep : x.scanner.step id '<' = .ok (next, events))
    (htaken : Accepts (l.receive depth directory) x.draft events d) :
    l.KeepsUp outer contents ['<'] x next d := by
  obtain ⟨-, hadvance⟩ := Scanner.step_eq_ok_iff.mp hstep
  have hless : x.scanner.advance id '<' = .ok ⟨.afterLess, x.scanner.nesting,
      Scanner.flush id x.scanner.line pending⟩ := by
    simp [Scanner.advance, hmode]
  obtain ⟨hnext, hnesting, rfl⟩ : next.mode = .afterLess ∧
      next.nesting = x.scanner.nesting ∧ events = Scanner.flush id x.scanner.line pending := by
    simpa using hadvance.symm.trans hless
  have hinside : next.mode.isContent = false := by
    rw [hnext]
    rfl
  have hsettled : x.around.settled x.pending = d := by
    rw [accepts_flush.mp htaken, hpending, Draft.settled_append _ hends, hdraft]
  refine ⟨_, rfl, rfl, Passes.held hstep (flush_plain _ _) hinside hnesting d,
    .inside hinside hsettled ?_⟩
  simp only [Tandem.position, hmarkup, hnext, ← hsettled]
  exact leads_less _ _ _

theorem Follows.text_step {pending before : List Char}
    (hmode : x.scanner.mode = .content pending) (hmarkup : x.markup = [])
    (hpending : x.pending = pending ++ before) (hends : EndsTag before)
    (hdraft : x.around.settled before = x.draft) (hc : c ≠ '<')
    (hstep : x.scanner.step id c = .ok (next, events))
    (htaken : Accepts (l.receive depth directory) x.draft events d) :
    l.KeepsUp outer contents [c] x next d := by
  obtain ⟨-, hadvance⟩ := Scanner.step_eq_ok_iff.mp hstep
  have hkept (kept : List Char) (line : Nat) (tags : List String) :
      Scanner.advance id ⟨.content kept, line, tags⟩ c = .ok ⟨.content (c :: kept), tags, []⟩ := by
    simp [Scanner.advance, hc]
  have hmore : x.scanner.advance id c = .ok ⟨.content (c :: pending), x.scanner.nesting, []⟩ := by
    simp [Scanner.advance, hmode, hc]
  obtain ⟨hnext, hnesting, rfl⟩ : next.mode = .content (c :: pending) ∧
      next.nesting = x.scanner.nesting ∧ events = [] := by
    simpa using hadvance.symm.trans hmore
  have hd : d = x.draft := Markup.accepts_nil.mp htaken
  have hleads : l.Leads [c] (x.position outer)
      ⟨.content (c :: x.pending), next.nesting ++ outer, x.around⟩ := by
    rw [hnesting]
    exact .of_silent fun line => hkept _ line _
  refine ⟨⟨next, d, [], c :: x.pending, x.around⟩, rfl, rfl, ?_, ?_⟩
  · refine .through hstep (List.forall_mem_nil _) (by rw [hnext]; rfl) ?_
    rwa [hmarkup]
  · exact .content hnext rfl (by rw [hpending]; rfl) hends (hdraft.trans hd.symm)

theorem Follows.inside_step (hmode : x.scanner.mode.isContent = false)
    (hdraft : x.around.settled x.pending = x.draft)
    (hleads : l.Leads x.markup.reverse (x.position outer)
      ⟨x.scanner.mode, x.scanner.nesting ++ outer, x.draft⟩)
    (hstep : x.scanner.step id c = .ok (next, events))
    (hplain : ∀ event ∈ events, event.include? = none)
    (htaken : Accepts (l.receive depth directory) x.draft events d) :
    l.KeepsUp outer contents [c] x next d := by
  obtain ⟨-, hadvance⟩ := Scanner.step_eq_ok_iff.mp hstep
  have hlast : l.Leads [c] ⟨x.scanner.mode, x.scanner.nesting ++ outer, x.draft⟩
      ⟨next.mode, next.nesting ++ outer, d⟩ :=
    .of_advance (fun line => Scanner.advance_around hmode hadvance line outer)
      fun others hothers => accepts_of_plain hplain hothers htaken
  have hall : l.Leads (c :: x.markup).reverse (x.position outer)
      ⟨next.mode, next.nesting ++ outer, d⟩ := by
    rw [List.reverse_cons]
    exact hleads.append hlast
  -- the text comes to the tag when the tag ends, and until then it stays where it is
  rcases Scanner.advance_inside hmode hadvance with
    (hnext : next.mode = .content []) | ⟨hnext, hnesting, hevents⟩
  · rw [hnext] at hall
    refine ⟨⟨next, d, [], [], d⟩, rfl, rfl, .through hstep hplain (by rw [hnext]; rfl) hall, ?_⟩
    exact .content hnext rfl rfl (by simp [EndsTag]) d.settled_nil
  · obtain rfl := hevents
    have hd : d = x.draft := Markup.accepts_nil.mp htaken
    refine ⟨_, rfl, rfl, Passes.held hstep hplain hnext hnesting d, ?_⟩
    refine .inside hnext (hdraft.trans hd.symm) ?_
    have hsame : next.nesting = x.scanner.nesting := hnesting
    simpa only [Tandem.position, hsame] using hall

/-- Where an include tag ends in the file, the text has the contents of the included file. -/
theorem Follows.include_step {s : Source} {tag : Markup.OpenTag} (hname : tag.name = "include")
    (hdraft : x.around.settled x.pending = x.draft)
    (hstep : x.scanner.step id c = .ok (next, events))
    (houtcome : ⟨next.mode, next.nesting, events⟩ = x.scanner.emptyElement tag)
    (hinserts : l.Inserts contents depth s events)
    (htaken : Accepts (l.receive depth s.directory) x.draft events d) :
    l.KeepsUp outer contents [c] x next d := by
  have hnext : next.mode = .content [] := congrArg Scanner.Step.mode houtcome
  have hnesting : next.nesting = x.scanner.nesting := congrArg Scanner.Step.nesting houtcome
  obtain rfl : events = [.start "include" tag.attributes x.scanner.line,
      .finish "include" x.scanner.line] := by
    rw [← hname]
    exact congrArg Scanner.Step.events houtcome
  obtain ⟨between, hstart, hfinish⟩ := Markup.accepts_cons.mp htaken
  obtain ⟨file, inner, hpath, hdepth, hreads⟩ := receive_include_eq_ok.mp hstart
  have hd : d = between := by
    obtain ⟨last, hlast, hnil⟩ := Markup.accepts_cons.mp hfinish
    have hplain : l.receive depth s.directory (.finish "include" x.scanner.line) between =
        .ok between := by cases depth <;> rfl
    obtain rfl := Except.ok.inj (hlast.symm.trans hplain)
    exact Markup.accepts_nil.mp hnil
  subst hd
  obtain ⟨text, hcontents, hstands⟩ :=
    hinserts _ _ file inner _ _ List.mem_cons_self hpath hdepth hreads
  obtain ⟨pending, around, hleads, hends, hsettled⟩ :=
    hstands (x.scanner.nesting ++ outer) x.pending x.around hdraft
  refine ⟨⟨next, d, [], pending, around⟩, rfl, rfl, ⟨text, ?_, ?_⟩, ?_⟩
  · simpa only [Tandem.position, hnesting] using hleads
  · have hincluded : Markup.includedPath? [.start "include" tag.attributes x.scanner.line,
        .finish "include" x.scanner.line] = some file := hpath
    exact Scanner.splice_of_included hstep hincluded hcontents x.markup
  · exact .content hnext rfl rfl hends hsettled

/-- One step of the file's scan keeps the two readings together. -/
theorem Follows.step {s : Source} (h : l.Follows outer x)
    (hstep : x.scanner.step id c = .ok (next, events)) (hopen : "include" ∉ next.nesting)
    (hinserts : l.Inserts contents depth s events)
    (htaken : Accepts (l.receive depth s.directory) x.draft events d) :
    l.KeepsUp outer contents [c] x next d := by
  cases h with
  | content hmode hmarkup hpending hends hdraft =>
      by_cases hc : c = '<'
      · subst hc
        exact less_step hmode hmarkup hpending hends hdraft hstep htaken
      · exact text_step hmode hmarkup hpending hends hdraft hc hstep htaken
  | inside hmode hdraft hleads =>
      obtain ⟨-, hadvance⟩ := Scanner.step_eq_ok_iff.mp hstep
      rcases plain_or_include hadvance hopen with hplain | ⟨tag, hname, houtcome⟩
      · exact inside_step hmode hdraft hleads hstep hplain htaken
      · exact include_step hname hdraft hstep houtcome hinserts htaken

theorem Inserts.of_subset {s : Source} {others : List Event}
    (h : l.Inserts contents depth s events) (hsub : others ⊆ events) :
    l.Inserts contents depth s others :=
  fun attributes line file inner d d' hmem => h attributes line file inner d d' (hsub hmem)

theorem Follows.run {s : Source} {t : Scanner} {reached : Scanner}
    (hreads : Scanner.Reads id reached read events t) (h : l.Follows outer x)
    (hreached : x.scanner = reached) (hopens : reached.neverOpens "include" read = true)
    (hinserts : l.Inserts contents depth s events)
    (htaken : Accepts (l.receive depth s.directory) x.draft events d) :
    l.KeepsUp outer contents read x t d := by
  induction hreads generalizing x with
  | nil s => exact ⟨x, hreached, (Markup.accepts_nil.mp htaken).symm, .refl x, h⟩
  | cons hstep hrest ih =>
      subst hreached
      obtain ⟨between, hfirst, hlater⟩ := Markup.accepts_append.mp htaken
      have hnext := Scanner.neverOpens_of_step hstep hopens
      obtain ⟨y, hscanner, rfl, hpasses, hfollows⟩ := h.step hstep
        (Scanner.not_mem_of_neverOpens hnext)
        (hinserts.of_subset (List.subset_append_left _ _)) hfirst
      obtain ⟨z, hlast, hd, hmore, hend⟩ := ih hfollows hscanner hnext
        (hinserts.of_subset (List.subset_append_right _ _)) hlater
      exact ⟨z, hlast, hd, hpasses.append hmore, hend⟩

/-- At the end of the file the two agree but for what is pending. -/
theorem Passes.ends {last : List Char} {line : Nat} (hpasses : l.Passes outer contents read x y)
    (hfollows : l.Follows outer y) (hend : y.scanner = ⟨.content last, line, []⟩) :
    ∃ text before, x.scanner.splice contents x.markup read = some text ∧
      l.Leads text (x.position outer) ⟨.content (last ++ before), outer, y.around⟩ ∧
      EndsTag before ∧ y.around.settled before = y.draft := by
  cases hfollows with
  | inside hmode => simp [hend, Mode.isContent] at hmode
  | @content pending before hmode hmarkup hpending hends hdraft =>
      obtain rfl : last = pending := by simpa [hend] using hmode
      obtain ⟨text, hleads, hsplice⟩ := hpasses
      refine ⟨text, before, ?_, ?_, hends, hdraft⟩
      · simpa [hmarkup, Scanner.splice] using hsplice []
      · simpa [Tandem.position, hend, hpending] using hleads

/-- The text follows the file from its first tag to its end, from wherever the text stands. -/
theorem follows_inserted {s : Source} {last pending : List Char} {line : Nat}
    {around between : Draft}
    (hreads : Scanner.Reads id {} ('<' :: read) events ⟨.content last, line, []⟩)
    (hopens : Scanner.neverOpens "include" {} ('<' :: read) = true)
    (hinserts : l.Inserts contents depth s events)
    (htaken : Accepts (l.receive depth s.directory) d events between)
    (hdraft : around.settled pending = d) (outer : List String) :
    ∃ text before around', Scanner.splice contents {} [] ('<' :: read) = some text ∧
      l.Leads text ⟨.content pending, outer, around⟩ ⟨.content (last ++ before), outer, around'⟩ ∧
      EndsTag before ∧ around'.settled before = between := by
  cases hreads with
  | cons hstep hrest =>
      have hlater := Scanner.neverOpens_of_step hstep hopens
      cases hstep
      obtain ⟨y, hy, rfl, hbegun, hfollows⟩ := tandem_begins hdraft
      obtain ⟨z, hz, rfl, hpasses, hfollows⟩ := hfollows.run hrest hy hlater hinserts htaken
      obtain ⟨text, before, hsplice, hleads, hends, hsettled⟩ :=
        (hbegun.append hpasses).ends hfollows hz
      exact ⟨text, before, z.around, hsplice, hleads, hends, hsettled⟩

end Tandem

section File

variable {s : Source}

/-- A file that is read to its end has been scanned without an error to a place between tags. -/
theorem ReadsFile.reads (hcharset : l.env.host.charset = id) (h : l.ReadsFile depth s d d') :
    ∃ text events last line between, l.env.characters s = some text ∧
      Scanner.Reads id {} text events ⟨.content last, line, []⟩ ∧
      Accepts (l.receive depth s.directory) d events between ∧ d' = between.settled last ∧
      ∀ attributes line file, .start "include" attributes line ∈ events →
        attributes.get? "path" = some file → l.env.Includes s (s.included file) := by
  obtain ⟨bytes, hbytes, hfailure, haccepts⟩ := h
  have hscan : l.env.scan bytes = Scanner.run id {} (Text.decodeBytes bytes) := by
    rw [Environment.scan, hcharset]
    rfl
  obtain ⟨text, rest, events, t, htext, hreads, hend⟩ :=
    Scanner.run_ends id {} (Text.decodeBytes bytes)
  rcases hend with ⟨flushed, rfl, hfinish, hrun⟩ | ⟨cause, -, hrun⟩
  · rw [hscan, hrun] at haccepts
    obtain ⟨last, ht, rfl⟩ := Scanner.finish_eq_ok.mp hfinish
    obtain ⟨between, hevents, hflush⟩ := Markup.accepts_append.mp haccepts
    rw [List.append_nil] at htext
    rw [ht] at hreads
    refine ⟨text, events, last, t.line, between, ?_, hreads, hevents, accepts_flush.mp hflush, ?_⟩
    · rw [Environment.characters, hbytes, ← htext]
      rfl
    · intro attributes line file hmem hpath
      refine ⟨bytes, attributes, line, file, hbytes, ?_, hpath, rfl⟩
      rw [hscan, hrun]
      exact List.mem_append_left _ hmem
  · rw [hscan, hrun] at hfailure
    cases hfailure

/-- What a file includes can be put into it, if that is so of every file less deep. -/
theorem inserts_contents (depth : Nat) {events : List Event} (hspliceable : l.env.Spliceable s)
    (hincludes : ∀ attributes line file, .start "include" attributes line ∈ events →
      attributes.get? "path" = some file → l.env.Includes s (s.included file))
    (hfiles : ∀ inner < depth, ∀ t d d', l.env.Insertable t → l.ReadsFile inner t d d' →
      ∃ text, l.env.splice inner t = some text ∧ l.StandsFor text d d') :
    l.Inserts (l.env.contents s depth) depth s events := by
  intro attributes line file inner d d' hmem hpath hdepth hfile
  subst hdepth
  have hincluded := hincludes attributes line file hmem hpath
  exact hfiles inner (Nat.lt_succ_self inner) _ d d' (hspliceable.included hincluded) hfile

/-- A file that is included is read as the text that is put in its place. -/
theorem ReadsFile.standsFor (hinsertable : l.env.Insertable s) (h : l.ReadsFile depth s d d') :
    ∃ text, l.env.splice depth s = some text ∧ l.StandsFor text d d' := by
  induction depth using Nat.strong_induction_on generalizing s d d' with
  | _ depth ih =>
      have hspliceable := hinsertable.spliceable
      obtain ⟨text, events, last, line, between, htext, hreads, htaken, rfl, hincludes⟩ :=
        h.reads hspliceable.charset
      have hinserts := inserts_contents depth hspliceable hincludes
        fun inner hinner t d d' ht hfile => ih inner hinner ht hfile
      have hopens := hspliceable.single s text .refl htext
      have hlast := hreads.endsTag rfl (hinsertable.ending text htext)
      obtain ⟨rest, rfl⟩ := List.head?_eq_some_iff.mp (hinsertable.start text htext)
      have hfollowed (outer : List String) (pending : List Char) (around : Draft)
          (hd : around.settled pending = d) :=
        follows_inserted hreads hopens hinserts htaken hd outer
      -- what the text is does not depend on what stands around the tag, so any place will do
      obtain ⟨result, -, -, hresult, -⟩ := hfollowed [] [] d d.settled_nil
      refine ⟨result, ?_, ?_⟩
      · rw [Environment.splice_eq, htext]
        exact hresult
      · intro outer pending around hd
        obtain ⟨other, before, around', hother, hleads, hends, hsettled⟩ :=
          hfollowed outer pending around hd
        obtain rfl := Option.some.inj (hresult.symm.trans hother)
        refine ⟨last ++ before, around', hleads, hlast.append hends, ?_⟩
        rw [Draft.settled_append _ hends, hsettled]

/-- A file that is read to its end is read as its text with all includes replaced. -/
theorem ReadsFile.spliced (hspliceable : l.env.Spliceable s) (h : l.ReadsFile depth s d d') :
    ∃ text, l.env.splice depth s = some text ∧
      l.ReadsBytes l.options.includeDepth l.base (String.ofList text).toUTF8.data.toList d d' := by
  obtain ⟨text, events, last, line, between, htext, hreads, htaken, rfl, hincludes⟩ :=
    h.reads hspliceable.charset
  have hinserts := inserts_contents depth hspliceable hincludes
    fun inner _ t d d' ht hfile => hfile.standsFor ht
  have hopens := hspliceable.single s text .refl htext
  have hbegun : l.Follows [] ⟨{}, d, [], [], d⟩ :=
    .content rfl rfl rfl (by simp [EndsTag]) d.settled_nil
  obtain ⟨z, hz, hreached, hpasses, hfollows⟩ := hbegun.run hreads rfl hopens hinserts htaken
  obtain ⟨result, before, hsplice, ⟨said, hsaid, hleads⟩, hends, hsettled⟩ :=
    hpasses.ends hfollows hz
  refine ⟨result, ?_, ?_⟩
  · rw [Environment.splice_eq, htext]
    exact hsplice
  · obtain ⟨line', all, hall, hsame⟩ := hsaid 1
    have hscan : l.env.scan (String.ofList result).toUTF8.data.toList =
        ⟨all ++ Scanner.flush id line' (last ++ before), none⟩ := by
      rw [Environment.scan, hspliceable.charset, Text.decodeBytes_toUTF8]
      simpa [Markup.scan, Tandem.position, Scanner.run, Scanner.finish] using hall.run_append []
    refine ⟨by rw [hscan], ?_⟩
    rw [hscan]
    refine Markup.accepts_append.mpr ⟨z.around, hleads all hsame, accepts_flush.mpr ?_⟩
    rw [Draft.settled_append _ hends, hsettled, hreached]

end File

end Loading

namespace Environment

/-- The text of a file does not depend on how deep files can nest, if it is deep enough. -/
theorem splice_mono {env : Environment} {depth more : Nat} {s : Source} {text : List Char}
    (hle : depth ≤ more) (h : env.splice depth s = some text) : env.splice more s = some text := by
  induction depth generalizing more s text with
  | zero =>
      rw [splice_eq] at h ⊢
      obtain ⟨characters, hcharacters, hsplice⟩ := Option.bind_eq_some_iff.mp h
      rw [hcharacters]
      exact Scanner.splice_mono (fun file inner hnone => by cases hnone) hsplice
  | succ depth ih =>
      obtain ⟨more, rfl⟩ : ∃ n, more = n + 1 := Nat.exists_eq_add_of_le' (by omega)
      rw [splice_eq] at h ⊢
      obtain ⟨characters, hcharacters, hsplice⟩ := Option.bind_eq_some_iff.mp h
      rw [hcharacters]
      exact Scanner.splice_mono (fun file inner => ih (Nat.le_of_succ_le_succ hle)) hsplice

/-- Of files given by their texts, each by itself tells whether its includes can be spliced. -/
theorem spliceable_ofTexts {files : List (String × String)} (main : Source)
    (h : ∀ file ∈ files, Scanner.neverOpens "include" {} file.2.toList = true ∧
      file.2.toList.head? = some '<' ∧ file.2.toList.getLast? = some '>') :
    (ofTexts files).Spliceable main := by
  have hfile (s : Source) (text : List Char) (htext : (ofTexts files).characters s = some text) :
      Scanner.neverOpens "include" {} text = true ∧ text.head? = some '<' ∧
        text.getLast? = some '>' := by
    obtain ⟨bytes, hbytes, rfl⟩ := Option.map_eq_some_iff.mp htext
    rw [toOption_eq_some_iff] at hbytes
    unfold ofTexts at hbytes
    dsimp only at hbytes
    split at hbytes
    · rename_i content hcontent
      obtain ⟨before, after, rfl, -⟩ := List.lookup_eq_some_iff.mp hcontent
      cases hbytes
      have hdecoded := Text.decodeBytes_toUTF8 content.toList
      rw [String.ofList_toList] at hdecoded
      rw [hdecoded]
      exact h _ (List.mem_append_right _ List.mem_cons_self)
    · cases hbytes
  exact ⟨rfl, fun s text _ htext => (hfile s text htext).1,
    fun s text _ htext => (hfile s text htext).2.1, fun s text _ htext => (hfile s text htext).2.2⟩

end Environment

namespace Skin

variable {env : Environment} {options : LoadOptions} {skin : Skin}

/-- Including equals splicing. If a skin is loaded from a file, the same skin is loaded from the
text in which every include tag is replaced by the text of the file it names, looked for in the
directory of the file that the tag is in. An included file with a skin element is refused, so
nothing has to be said about it. -/
theorem loadBytes_splice {path : FilePath} (hspliceable : env.Spliceable (.ofPath path ⟨""⟩))
    (hload : Skin.load env options path = .ok skin) :
    let main := Source.ofPath path ⟨""⟩
    ∃ text, (∀ depth, options.includeDepth ≤ depth → env.splice depth main = some text) ∧
      Skin.loadBytes env options main.directory (String.ofList text).toUTF8.data.toList =
        .ok skin := by
  intro main
  obtain ⟨d, hreads, hskin⟩ := load_eq_ok_iff.mp hload
  obtain ⟨text, htext, hbytes⟩ := hreads.spliced hspliceable
  refine ⟨text, ?_, ?_⟩
  · intro depth hdepth
    exact Environment.splice_mono hdepth htext
  · exact loadBytes_eq_ok_iff.mpr ⟨d, hbytes, hskin⟩

/-- A skin with includes between its declarations, in a list and in a text, one of them from a file
in another directory, which has an include of its own. -/
theorem loadBytes_splice_nested :
    let env := Environment.ofTexts
      [("s/main.skin", "<skin version=\"1.0\"><include path=\"parts/a.xml\"/><display id=\"d\">" ++
          "<list><include path=\"item.xml\" /></list><scrolltext font=\"f\">a" ++
          "<include path=\"note.xml\"/>b</scrolltext></display></skin>"),
        ("s/parts/a.xml", "<variable id=\"v\" value=\"1\"/> <include path=\"b.xml\"/>"),
        ("s/parts/b.xml", "<variable id=\"w\" value=\"2\"/>"),
        ("s/item.xml", "<item height=\"1\"/><pixel/>"),
        ("s/note.xml", "<!----> &gt;>")]
    let main := Source.ofPath ⟨"s/main.skin"⟩ ⟨""⟩
    let text := "<skin version=\"1.0\"><variable id=\"v\" value=\"1\"/> " ++
      "<variable id=\"w\" value=\"2\"/><display id=\"d\"><list><item height=\"1\"/><pixel/>" ++
      "</list><scrolltext font=\"f\">a<!----> &gt;>b</scrolltext></display></skin>"
    env.Spliceable main ∧ env.splice 5 main = some text.toList ∧
      ∃ skin, Skin.load env {} ⟨"s/main.skin"⟩ = .ok skin ∧
        skin.variableTable.declarations.map (·.id) = ["v", "w"] ∧
        skin.displays.map (·.widgets.map Widget.name) = [["list", "text"]] ∧
        Skin.loadBytes env {} main.directory text.toUTF8.data.toList = .ok skin := by
  intro env main text
  have hspliceable : env.Spliceable main := Environment.spliceable_ofTexts main (by decide +kernel)
  have hsplice : env.splice 5 main = some text.toList := by decide +kernel
  have hrun : (Skin.load env {} ⟨"s/main.skin"⟩).toOption.map (fun skin =>
      (skin.variableTable.declarations.map (·.id), skin.displays.map (·.widgets.map Widget.name))) =
      some (["v", "w"], [["list", "text"]]) := by
    decide +kernel
  obtain ⟨skin, hskin, hnames⟩ := Option.map_eq_some_iff.mp hrun
  have hload := toOption_eq_some_iff.mp hskin
  obtain ⟨hvariables, hwidgets⟩ := Prod.mk.inj hnames
  obtain ⟨spliced, htext, hbytes⟩ := loadBytes_splice hspliceable hload
  obtain rfl := Option.some.inj (hsplice.symm.trans (htext 5 (Nat.le_refl _)))
  rw [String.ofList_toList] at hbytes
  exact ⟨hspliceable, hsplice, skin, hload, hvariables, hwidgets, hbytes⟩

end Skin

end PanelSkin
