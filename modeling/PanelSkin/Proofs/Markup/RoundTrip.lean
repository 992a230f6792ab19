import PanelSkin.Proofs.Markup.Content
import PanelSkin.Proofs.Markup.Logging
import PanelSkin.Proofs.Markup.Reading
import PanelSkin.Proofs.Markup.Reference
import PanelSkin.Proofs.Markup.Value
import PanelSkin.Proofs.Text.Utf8

/-!
Reading undoes writing: every text a well formed tree may be written as is read without an
error, and says the tree. The proof follows the writing. Each piece of markup leads the scan
from one mode to the next, whatever the line and the elements open around it, and pieces are
put together by composing these steps.
-/

namespace PanelSkin.Markup

/-! Escapes. -/

private theorem not_lt_mem_escapeText (text : List Char) : '<' ∉ escapeText text := by
  intro hmem
  obtain ⟨c, -, hc⟩ := List.mem_flatMap.mp hmem
  split_ifs at hc with hamp hlt
  · simp at hc
  · simp at hc
  · exact hlt (List.mem_singleton.mp hc).symm

private theorem escapeText_ne_nil {text : List Char} (hsome : text ≠ []) :
    escapeText text ≠ [] := by
  intro hnil
  apply hsome
  rw [← decodeEntities_escapeText text, hnil]
  rfl

/-! Characters of names and gaps. -/

theorem isNameStart_of_startsName {c : Char} (h : StartsName c) : isNameStart c = true := by
  unfold isNameStart
  rcases h with hupper | hlower | rfl
  · have hcode : 65 ≤ c.val ∧ c.val ≤ 90 := hupper
    simp [Char.isAlpha, Char.isUpper, hcode]
  · have hcode : 97 ≤ c.val ∧ c.val ≤ 122 := hlower
    simp [Char.isAlpha, Char.isLower, hcode]
  · rfl

theorem isNameChar_of_isNameStart {c : Char} (h : isNameStart c = true) :
    isNameChar c = true := by
  unfold isNameStart at h
  unfold isNameChar Char.isAlphanum
  rcases Bool.or_eq_true_iff.mp h with hletter | hunderscore
  · simp only [hletter, Bool.true_or]
  · simp only [hunderscore, Bool.or_true]

theorem isNameChar_of_digit {c : Char} (h : '0' ≤ c ∧ c ≤ '9') : isNameChar c = true := by
  have hcode : 48 ≤ c.val ∧ c.val ≤ 57 := h
  simp [isNameChar, Char.isAlphanum, Char.isDigit, hcode]

/-- A name as the scanner meets it. -/
theorem IsName.toList {name : String} (h : IsName name) :
    ∃ first rest, name.toList = first :: rest ∧ isNameStart first = true ∧
      ∀ c ∈ rest, isNameChar c = true := by
  obtain ⟨first, rest, hname, hfirst, hrest⟩ := h
  refine ⟨first, rest, hname, isNameStart_of_startsName hfirst, ?_⟩
  intro c hc
  rcases hrest c hc with hstart | hdigit
  · exact isNameChar_of_isNameStart (isNameStart_of_startsName hstart)
  · exact isNameChar_of_digit hdigit

private theorem plain_of_isNameStart {c : Char} (h : isNameStart c = true) :
    isSpace c = false ∧ c ≠ '/' ∧ c ≠ '>' ∧ c ≠ '!' ∧ c ≠ '?' := by
  refine ⟨?_, ?_, ?_, ?_, ?_⟩
  · apply Bool.eq_false_iff.mpr
    intro hspace
    simp only [isSpace, Bool.or_eq_true, beq_iff_eq] at hspace
    rcases hspace with ((rfl | rfl) | rfl) | rfl <;> cases h
  all_goals
    rintro rfl
    cases h

theorem textOf_reverse_toList (text : String) : textOf text.toList.reverse = text := by
  rw [textOf, List.reverse_reverse, String.ofList_toList]

private theorem space_of_mem_gap {gap : List Char} (hgap : IsGap gap) {c : Char}
    (hc : c ∈ gap) : isSpace c = true ∧ isNameChar c = false ∧ c ≠ '>' ∧ c ≠ '=' := by
  rcases hgap c hc with rfl | rfl | rfl | rfl <;> decide

/-! Steps from mode to mode. -/

/-- Reading `text` takes a scan from one mode and list of open elements to another and says
`said`, on whatever line it starts. -/
def Leads (source : Mode × List String) (text : List Char) (said : List Piece)
    (target : Mode × List String) : Prop :=
  ∀ line, ∃ line' events,
    Scanner.Reads id ⟨source.1, line, source.2⟩ text events ⟨target.1, line', target.2⟩ ∧
      events.map Event.piece = said

theorem Leads.refl (source : Mode × List String) : Leads source [] [] source := by
  intro line
  exact ⟨line, [], .nil _, rfl⟩

theorem Leads.append {source middle target : Mode × List String} {text more : List Char}
    {said later : List Piece} (hfirst : Leads source text said middle)
    (hmore : Leads middle more later target) :
    Leads source (text ++ more) (said ++ later) target := by
  intro line
  obtain ⟨line', events, hreads, hsaid⟩ := hfirst line
  obtain ⟨line'', events', hreads', hsaid'⟩ := hmore line'
  refine ⟨line'', events ++ events', hreads.append hreads', ?_⟩
  rw [List.map_append, hsaid, hsaid']

/-- One character that completes the events of `first`, in front of others. -/
theorem Leads.saying (first : List Piece) {mode next : Mode} {tags tags' : List String}
    {c : Char} {text : List Char} {said : List Piece} {target : Mode × List String}
    (hadvance : ∀ line, ∃ events, Scanner.advance id ⟨mode, line, tags⟩ c =
        .ok ⟨next, tags', events⟩ ∧ events.map Event.piece = first)
    (hrest : Leads (next, tags') text said target) :
    Leads (mode, tags) (c :: text) (first ++ said) target := by
  intro line
  obtain ⟨events, hstep, hfirst⟩ := hadvance line
  obtain ⟨line', later, hreads, hsaid⟩ := hrest (if c = '\n' then line + 1 else line)
  refine ⟨line', events ++ later, .cons ?_ hreads, ?_⟩
  · simp only [Scanner.step, hstep]
  · rw [List.map_append, hfirst, hsaid]

/-- One character that completes no event, in front of others. -/
theorem Leads.after (next : Mode) {mode : Mode} {tags : List String} {c : Char}
    {text : List Char} {said : List Piece} {target : Mode × List String}
    (hadvance : ∀ line, Scanner.advance id ⟨mode, line, tags⟩ c = .ok ⟨next, tags, []⟩)
    (hrest : Leads (next, tags) text said target) :
    Leads (mode, tags) (c :: text) said target :=
  Leads.saying [] (fun line => ⟨[], hadvance line, rfl⟩) hrest

/-- Characters that a mode keeps, one by one, the last of them first. -/
theorem Leads.kept (mode : List Char → Mode) (kept : List Char) {tags : List String}
    {text rest : List Char} {said : List Piece} {target : Mode × List String}
    (hadvance : ∀ c ∈ text, ∀ kept line, Scanner.advance id ⟨mode kept, line, tags⟩ c =
      .ok ⟨mode (c :: kept), tags, []⟩)
    (hrest : Leads (mode (text.reverse ++ kept), tags) rest said target) :
    Leads (mode kept, tags) (text ++ rest) said target := by
  induction text generalizing kept with
  | nil => exact hrest
  | cons c text ih =>
      rw [List.reverse_cons, List.append_assoc, List.singleton_append] at hrest
      apply Leads.after _ (hadvance c List.mem_cons_self kept)
      apply ih
      · intro d hd
        exact hadvance d (List.mem_cons_of_mem c hd)
      · exact hrest

/-- Characters that a mode passes over. -/
theorem Leads.skipped {mode : Mode} {tags : List String} {text rest : List Char}
    {said : List Piece} {target : Mode × List String}
    (hadvance : ∀ c ∈ text, ∀ line, Scanner.advance id ⟨mode, line, tags⟩ c =
      .ok ⟨mode, tags, []⟩)
    (hrest : Leads (mode, tags) rest said target) :
    Leads (mode, tags) (text ++ rest) said target :=
  Leads.kept (fun _ => mode) [] (fun c hc _ => hadvance c hc) hrest

/-- A gap, whose first character takes the scan to the mode that waits for its end. -/
theorem Leads.gap {mode : Mode} (waiting : Mode) {tags : List String} {gap rest : List Char}
    {said : List Piece} {target : Mode × List String}
    (henter : ∀ c ∈ gap, ∀ line, Scanner.advance id ⟨mode, line, tags⟩ c =
      .ok ⟨waiting, tags, []⟩)
    (hwait : ∀ c ∈ gap, ∀ line, Scanner.advance id ⟨waiting, line, tags⟩ c =
      .ok ⟨waiting, tags, []⟩)
    (hnone : gap = [] → Leads (mode, tags) rest said target)
    (hsome : Leads (waiting, tags) rest said target) :
    Leads (mode, tags) (gap ++ rest) said target := by
  cases gap with
  | nil => exact hnone rfl
  | cons c gap =>
      apply Leads.after waiting (henter c List.mem_cons_self)
      apply Leads.skipped
      · intro d hd
        exact hwait d (List.mem_cons_of_mem c hd)
      · exact hsome

/-- A name, all of whose characters a mode keeps. -/
theorem Leads.name (mode : List Char → Mode) {start : Mode} {tags : List String}
    {name : String} (hname : IsName name) {rest : List Char} {said : List Piece}
    {target : Mode × List String}
    (hstart : ∀ c, isNameStart c = true → ∀ line, Scanner.advance id ⟨start, line, tags⟩ c =
      .ok ⟨mode [c], tags, []⟩)
    (hkeep : ∀ c, isNameChar c = true → ∀ kept line,
      Scanner.advance id ⟨mode kept, line, tags⟩ c = .ok ⟨mode (c :: kept), tags, []⟩)
    (hrest : Leads (mode name.toList.reverse, tags) rest said target) :
    Leads (start, tags) (name.toList ++ rest) said target := by
  obtain ⟨first, letters, hletters, hfirst, hmore⟩ := hname.toList
  rw [hletters, List.cons_append]
  apply Leads.after _ (hstart first hfirst)
  apply Leads.kept mode [first]
  · intro c hc
    exact hkeep c (hmore c hc)
  · rw [hletters, List.reverse_cons] at hrest
    exact hrest

/-! Attribute values. -/

/-- What spells a value is read as the value, up to the quote behind it. -/
theorem Leads.value {tag : OpenTag} {name : String} {quote : Char} (hquote : quote ≠ '\\')
    {tags : List String} {raw value rest : List Char} {said : List Piece}
    {target : Mode × List String} (hspells : Spells quote raw value)
    (hrest : Leads (.beforeName (tag.adding (name, String.ofList value)), tags) rest said target) :
    Leads (.value tag name quote false [], tags) (raw ++ quote :: rest) said target := by
  have hraw : Leads (.value tag name quote false [], tags) raw []
      (.value tag name quote false value.reverse, tags) := by
    intro line
    obtain ⟨-, line', hreads⟩ := Scanner.reads_of_spells hspells [] line
    rw [List.append_nil] at hreads
    exact ⟨line', [], hreads, rfl⟩
  refine hraw.append (Leads.after _ ?_ hrest)
  intro line
  simp [Scanner.advance, textOf, OpenTag.adding, hquote]

/-! Tags. -/

/-- The modes in which a tag has been read up to its name or up to some attribute. -/
inductive InTag : OpenTag → Mode → Prop where
  | name (letters : List Char) : InTag { name := textOf letters } (.tagName letters)
  | later (tag : OpenTag) : InTag tag (.beforeName tag)

theorem InTag.advance_space {tag : OpenTag} {mode : Mode} (h : InTag tag mode) {c : Char}
    (hspace : isSpace c = true) (hname : isNameChar c = false) (line : Nat)
    (tags : List String) :
    Scanner.advance id ⟨mode, line, tags⟩ c = .ok ⟨.beforeName tag, tags, []⟩ := by
  cases h with
  | name letters => simp [Scanner.advance, hname, hspace]
  | later => simp [Scanner.advance, hspace]

theorem InTag.advance_slash {tag : OpenTag} {mode : Mode} (h : InTag tag mode) (line : Nat)
    (tags : List String) :
    Scanner.advance id ⟨mode, line, tags⟩ '/' = .ok ⟨.afterSlash tag, tags, []⟩ := by
  cases h with
  | name letters => rfl
  | later => rfl

theorem InTag.advance_close {tag : OpenTag} {mode : Mode} (h : InTag tag mode) (line : Nat)
    (tags : List String) :
    Scanner.advance id ⟨mode, line, tags⟩ '>' =
      .ok ⟨.content [], tag.name :: tags, [.start tag.name tag.attributes line]⟩ := by
  cases h with
  | name letters => rfl
  | later => rfl

/-- A gap behind a part of a tag. -/
theorem InTag.gap {tag : OpenTag} {mode : Mode} (h : InTag tag mode) {tags : List String}
    {gap rest : List Char} (hgap : IsGap gap) {said : List Piece}
    {target : Mode × List String}
    (hrest : ∀ mode', InTag tag mode' → (gap ≠ [] → mode' = .beforeName tag) →
      Leads (mode', tags) rest said target) :
    Leads (mode, tags) (gap ++ rest) said target := by
  apply Leads.gap (.beforeName tag)
  · intro c hc line
    obtain ⟨hspace, hname, -, -⟩ := space_of_mem_gap hgap hc
    exact h.advance_space hspace hname line tags
  · intro c hc line
    obtain ⟨hspace, hname, -, -⟩ := space_of_mem_gap hgap hc
    exact (InTag.later tag).advance_space hspace hname line tags
  · intro hnone
    exact hrest mode h (fun hsome => absurd hnone hsome)
  · exact hrest _ (.later tag) (fun _ => rfl)

/-- An attribute, from its name on to the quote behind its value. -/
theorem Leads.attribute {tag : OpenTag} {name value : String} {tags : List String}
    {before after rest : List Char} {said : List Piece} {target : Mode × List String}
    (hname : IsName name) (hvalue : Quotable '"' value.toList) (hbefore : IsGap before)
    (hafter : IsGap after)
    (hrest : Leads (.beforeName (tag.adding (name, value)), tags) rest said target) :
    Leads (.beforeName tag, tags)
      (name.toList ++ (before ++ '=' :: (after ++ '"' ::
        (escapeQuotes '"' value.toList ++ '"' :: rest)))) said target := by
  have hquoted : Leads (.value tag name '"' false [], tags)
      (escapeQuotes '"' value.toList ++ '"' :: rest) said target := by
    refine Leads.value (by decide) (hvalue.spells (by decide)) ?_
    rw [String.ofList_toList]
    exact hrest
  have hequals : Leads (.beforeValue tag name true, tags)
      (after ++ '"' :: (escapeQuotes '"' value.toList ++ '"' :: rest)) said target := by
    apply Leads.skipped
    · intro c hc line
      obtain ⟨hspace, -, -, -⟩ := space_of_mem_gap hafter hc
      simp [Scanner.advance, hspace]
    · exact Leads.after _ (fun line => rfl) hquoted
  apply Leads.name (.attributeName tag) hname
  · intro c hc line
    obtain ⟨hspace, hslash, hclose, -, -⟩ := plain_of_isNameStart hc
    simp [Scanner.advance, hspace, hslash, hclose, hc]
  · intro c hc kept line
    simp [Scanner.advance, hc]
  · apply Leads.gap (.beforeValue tag name false)
    · intro c hc line
      obtain ⟨hspace, hchar, -, hne⟩ := space_of_mem_gap hbefore hc
      simp [Scanner.advance, textOf_reverse_toList, hchar, hne, hspace]
    · intro c hc line
      obtain ⟨hspace, -, -, -⟩ := space_of_mem_gap hbefore hc
      simp [Scanner.advance, hspace]
    · intro _
      refine Leads.after _ ?_ hequals
      intro line
      simp [Scanner.advance, textOf_reverse_toList, isNameChar]
    · exact Leads.after _ (fun line => rfl) hequals

/-- The attributes of a tag, in their order. -/
theorem InTag.attributes {entries : List (String × String)} {text : List Char}
    (hwritten : WrittenAttributes entries text) (hnames : ∀ entry ∈ entries, IsName entry.1)
    (hvalues : ∀ entry ∈ entries, Quotable '"' entry.2.toList) {tag : OpenTag} {mode : Mode}
    (h : InTag tag mode) {tags : List String} {rest : List Char} {said : List Piece}
    {target : Mode × List String}
    (hrest : ∀ mode', InTag (entries.foldl OpenTag.adding tag) mode' →
      Leads (mode', tags) rest said target) :
    Leads (mode, tags) (text ++ rest) said target := by
  induction hwritten generalizing tag mode with
  | nil => exact hrest mode h
  | @cons name value entries gap before after text hgap hsome hbefore hafter _ ih =>
      simp only [List.append_assoc, List.cons_append]
      apply h.gap hgap
      intro mode' _ hmode
      rw [hmode hsome]
      apply Leads.attribute (hnames _ List.mem_cons_self) (hvalues _ List.mem_cons_self)
        hbefore hafter
      apply ih
      · intro entry hentry
        exact hnames entry (List.mem_cons_of_mem _ hentry)
      · intro entry hentry
        exact hvalues entry (List.mem_cons_of_mem _ hentry)
      · exact .later _
      · exact hrest

private theorem insertEntry_of_notMem (name value : String) (entries : List (String × String))
    (h : name ∉ entries.map (·.1)) :
    Attributes.insertEntry name value entries = entries ++ [(name, value)] := by
  induction entries with
  | nil => rfl
  | cons entry entries ih =>
      obtain ⟨first, old⟩ := entry
      simp only [List.map_cons, List.mem_cons, not_or] at h
      rw [Attributes.insertEntry, if_neg (Ne.symm h.1), ih h.2, List.cons_append]

/-- Attributes with different names are kept in the order in which they are added. -/
theorem foldl_adding (tag : OpenTag) (entries : List (String × String))
    (hdistinct : ((tag.attributes.entries ++ entries).map (·.1)).Nodup) :
    entries.foldl OpenTag.adding tag =
      { tag with attributes := ⟨tag.attributes.entries ++ entries⟩ } := by
  induction entries generalizing tag with
  | nil => simp
  | cons entry entries ih =>
      have hnew : entry.1 ∉ tag.attributes.entries.map (·.1) := by
        intro hmem
        rw [List.map_append, List.map_cons] at hdistinct
        exact (List.nodup_append.mp hdistinct).2.2 _ hmem _ List.mem_cons_self rfl
      have hadding : tag.adding entry =
          { tag with attributes := ⟨tag.attributes.entries ++ [entry]⟩ } := by
        rw [OpenTag.adding, Attributes.insert, insertEntry_of_notMem _ _ _ hnew]
      rw [List.foldl_cons, hadding, ih]
      · simp
      · simpa using hdistinct

/-- A tag behind its opening bracket, up to where it is closed. -/
theorem Leads.openTag {tag : OpenTag} (htag : tag.WellFormed) {attributes gap rest : List Char}
    (hattributes : WrittenAttributes tag.attributes.entries attributes) (hgap : IsGap gap)
    {tags : List String} {said : List Piece} {target : Mode × List String}
    (hrest : ∀ mode, InTag tag mode → Leads (mode, tags) rest said target) :
    Leads (.afterLess, tags) (tag.name.toList ++ (attributes ++ (gap ++ rest))) said target := by
  have hall : tag.attributes.entries.foldl OpenTag.adding { name := tag.name } = tag := by
    rw [foldl_adding]
    · rfl
    · exact htag.distinct
  have hnamed : InTag { name := tag.name } (.tagName tag.name.toList.reverse) := by
    have hname := InTag.name tag.name.toList.reverse
    rw [textOf_reverse_toList] at hname
    exact hname
  have hlater : Leads (.tagName tag.name.toList.reverse, tags)
      (attributes ++ (gap ++ rest)) said target := by
    apply InTag.attributes hattributes htag.attributeNames htag.values hnamed
    intro mode hmode
    rw [hall] at hmode
    apply hmode.gap hgap
    intro mode' hmode' _
    exact hrest mode' hmode'
  apply Leads.name .tagName htag.name
  · intro c hc line
    obtain ⟨-, hslash, -, hbang, hmark⟩ := plain_of_isNameStart hc
    simp [Scanner.advance, hslash, hbang, hmark, hc]
  · intro c hc kept line
    simp [Scanner.advance, hc]
  · exact hlater

/-- A closing tag behind its slash; it ends the innermost open element. -/
theorem Leads.closeTag {name : String} (hname : IsName name) {gap rest : List Char}
    (hgap : IsGap gap) {tags : List String} {said : List Piece} {target : Mode × List String}
    (hrest : Leads (.content [], tags) rest said target) :
    Leads (.afterCloseMark, name :: tags) (name.toList ++ (gap ++ '>' :: rest))
      (.finish name :: said) target := by
  have hclose (mode : Mode) (hmode : ∀ line, Scanner.advance id ⟨mode, line, name :: tags⟩ '>' =
      .ok ⟨.content [], tags, [.finish name line]⟩) :
      Leads (mode, name :: tags) ('>' :: rest) ([.finish name] ++ said) target := by
    apply Leads.saying _ _ hrest
    intro line
    exact ⟨_, hmode line, rfl⟩
  apply Leads.name .closeName hname
  · intro c hc line
    simp [Scanner.advance, hc]
  · intro c hc kept line
    simp [Scanner.advance, hc]
  · apply Leads.gap (.afterCloseName name)
    · intro c hc line
      obtain ⟨hspace, hchar, -, -⟩ := space_of_mem_gap hgap hc
      simp [Scanner.advance, hchar, hspace, textOf_reverse_toList]
    · intro c hc line
      obtain ⟨hspace, -, hne, -⟩ := space_of_mem_gap hgap hc
      simp [Scanner.advance, hspace, hne]
    · intro _
      apply hclose
      intro line
      simp [Scanner.advance, isNameChar, isSpace, Scanner.closeElement, textOf_reverse_toList]
    · apply hclose
      intro line
      simp [Scanner.advance, Scanner.closeElement]

/-! Trees. -/

/-- What pending character data says when it ends. -/
def flushed (pending : List Char) : List Piece :=
  if pending.isEmpty then [] else [.text (String.ofList (decodeEntities pending.reverse))]

theorem flush_pieces (line : Nat) (pending : List Char) :
    (Scanner.flush id line pending).map Event.piece = flushed pending := by
  unfold Scanner.flush flushed
  split <;> rfl

theorem flushed_escapeText {text : String} (hsome : text ≠ "") :
    flushed (escapeText text.toList).reverse = [.text text] := by
  have hne : escapeText text.toList ≠ [] := by
    apply escapeText_ne_nil
    intro hnil
    exact hsome (String.toList_eq_nil_iff.mp hnil)
  rw [flushed, if_neg (by simpa using hne), List.reverse_reverse, decodeEntities_escapeText,
    String.ofList_toList]

/-- An opening bracket ends the character data before it. -/
theorem Leads.less {pending : List Char} {tags : List String} {rest : List Char}
    {said : List Piece} {target : Mode × List String}
    (hrest : Leads (.afterLess, tags) rest said target) :
    Leads (.content pending, tags) ('<' :: rest) (flushed pending ++ said) target := by
  apply Leads.saying _ _ hrest
  intro line
  exact ⟨Scanner.flush id line pending, rfl, flush_pieces line pending⟩

/-- An element with two tags, behind its opening bracket. -/
theorem Leads.element {tag : OpenTag} (htag : tag.WellFormed)
    {attributes gap content closingGap after : List Char}
    (hattributes : WrittenAttributes tag.attributes.entries attributes) (hgap : IsGap gap)
    (hclosing : IsGap closingGap) {tags : List String} {kept : List Char}
    {saidInner said : List Piece} {target : Mode × List String}
    (hinner : Leads (.content [], tag.name :: tags) content saidInner
      (.content kept, tag.name :: tags))
    (hrest : Leads (.content [], tags) after said target) :
    Leads (.afterLess, tags)
      (tag.name.toList ++ (attributes ++ (gap ++ '>' :: (content ++ '<' :: '/' ::
        (tag.name.toList ++ (closingGap ++ '>' :: after))))))
      (.start tag.name tag.attributes ::
        (saidInner ++ (flushed kept ++ .finish tag.name :: said))) target := by
  have hclose : Leads (.content kept, tag.name :: tags)
      ('<' :: '/' :: (tag.name.toList ++ (closingGap ++ '>' :: after)))
      (flushed kept ++ .finish tag.name :: said) target := by
    apply Leads.less
    exact Leads.after _ (fun line => rfl) (Leads.closeTag htag.name hclosing hrest)
  apply Leads.openTag htag hattributes hgap
  intro mode hmode
  apply Leads.saying [.start tag.name tag.attributes] _ (hinner.append hclose)
  intro line
  exact ⟨_, hmode.advance_close line tags, rfl⟩

/-- An element with one tag, behind its opening bracket. -/
theorem Leads.single {tag : OpenTag} (htag : tag.WellFormed) {attributes gap after : List Char}
    (hattributes : WrittenAttributes tag.attributes.entries attributes) (hgap : IsGap gap)
    {tags : List String} {said : List Piece} {target : Mode × List String}
    (hrest : Leads (.content [], tags) after said target) :
    Leads (.afterLess, tags) (tag.name.toList ++ (attributes ++ (gap ++ '/' :: '>' :: after)))
      (.start tag.name tag.attributes :: .finish tag.name :: said) target := by
  apply Leads.openTag htag hattributes hgap
  intro mode hmode
  apply Leads.after _ (fun line => hmode.advance_slash line tags)
  apply Leads.saying [.start tag.name tag.attributes, .finish tag.name] _ hrest
  intro line
  exact ⟨_, rfl, rfl⟩

/-- A written tree is read between tags, with any elements open around it. Its last text may
still be pending at the end; `pending` is the text before it, of which there is none if the
tree starts with a text of its own. -/
theorem leads_written {document : Content} {text : List Char} (hwritten : Written document text)
    (hformed : document.WellFormed) (tags : List String) (pending : List Char)
    (hpending : pending = [] ∨ document.startsWithText = false) :
    ∃ left said, Leads (.content pending, tags) text said (.content left, tags) ∧
      flushed pending ++ document.pieces = said ++ flushed left := by
  induction hwritten generalizing tags pending with
  | empty => exact ⟨pending, [], Leads.refl _, by simp [Content.pieces]⟩
  | @text characters rest after _ ih =>
      obtain ⟨hsome, hrest, hformed⟩ := hformed
      have hnone : pending = [] := by
        rcases hpending with hnone | hstarts
        · exact hnone
        · cases hstarts
      subst hnone
      obtain ⟨left, said, hleads, hsaid⟩ :=
        ih hformed tags (escapeText characters.toList).reverse (Or.inr hrest)
      refine ⟨left, said, ?_, ?_⟩
      · apply Leads.kept .content []
        · intro c hc kept line
          have hne : c ≠ '<' := by
            rintro rfl
            exact not_lt_mem_escapeText _ hc
          simp [Scanner.advance, hne]
        · rw [List.append_nil]
          exact hleads
      · rw [← hsaid, flushed_escapeText hsome]
        rfl
  | @element tag inner rest attributes gap content closingGap after hattributes hgap _ hclosing _
      ihinner ihrest =>
      obtain ⟨htag, hinner, hrest⟩ := hformed
      obtain ⟨kept, saidInner, hleadsInner, hsaidInner⟩ :=
        ihinner hinner (tag.name :: tags) [] (Or.inl rfl)
      obtain ⟨left, saidRest, hleadsRest, hsaidRest⟩ := ihrest hrest tags [] (Or.inl rfl)
      refine ⟨left, _, Leads.less (Leads.element htag hattributes hgap hclosing hleadsInner
        hleadsRest), ?_⟩
      have hinnerPieces : inner.pieces = saidInner ++ flushed kept := hsaidInner
      have hrestPieces : rest.pieces = saidRest ++ flushed left := hsaidRest
      simp [Content.pieces, hinnerPieces, hrestPieces]
  | @single tag rest attributes gap after hattributes hgap _ ih =>
      obtain ⟨htag, -, hrest⟩ := hformed
      obtain ⟨left, saidRest, hleadsRest, hsaidRest⟩ := ih hrest tags [] (Or.inl rfl)
      refine ⟨left, _, Leads.less (Leads.single htag hattributes hgap hleadsRest), ?_⟩
      have hrestPieces : rest.pieces = saidRest ++ flushed left := hsaidRest
      simp [Content.pieces, hrestPieces]

/-- The scan of a written tree succeeds, and its events say the tree. -/
theorem scan_written {document : Content} {text : List Char} (hwritten : Written document text)
    (hformed : document.WellFormed) :
    (scan id text).failure = none ∧ (scan id text).events.map Event.piece = document.pieces := by
  obtain ⟨left, said, hleads, hsaid⟩ := leads_written hwritten hformed [] [] (Or.inl rfl)
  obtain ⟨line, events, hreads, hevents⟩ := hleads 1
  have hrun := hreads.run_append []
  rw [List.append_nil] at hrun
  have hscan : scan id text = ⟨events ++ Scanner.flush id line left, none⟩ := hrun
  rw [hscan]
  refine ⟨rfl, ?_⟩
  rw [List.map_append, hevents, flush_pieces, ← hsaid]
  rfl

variable {σ ε : Type}

/-- Reading undoes writing. However a well formed tree is written, its UTF-8 bytes are read
without an error, and a receiver that takes every event is handed the starts, texts and
finishes of the tree in document order. -/
theorem parse_written {document : Content} {text : List Char} (hwritten : Written document text)
    (hformed : document.WellFormed) (receive : Receiver σ ε)
    (htakes : ∀ event state, ∃ next, receive event state = .ok next) (state : σ) :
    (parse id receive (String.ofList text).toUTF8.data.toList state).2 = none ∧
      (parseLogged id receive (String.ofList text).toUTF8.data.toList state).1.map Event.piece =
        document.pieces := by
  obtain ⟨hfailure, hpieces⟩ := scan_written hwritten hformed
  rcases parseLogged_log id receive (String.ofList text).toUTF8.data.toList state with
    ⟨hlog, -, houtcome⟩ | ⟨accepted, event, rest, cause, -, -, -, hrefused, -⟩
  · rw [Text.decodeBytes_toUTF8] at hlog houtcome
    rw [hlog, houtcome, hfailure]
    exact ⟨rfl, hpieces⟩
  · obtain ⟨next, htaken⟩ := htakes event (parse id receive _ state).1
    rw [htaken] at hrefused
    cases hrefused

/-- A value of two backslashes and a quote, text that looks like a reference, and an element
with one tag. -/
theorem parse_written_escapes :
    let document : Content :=
      .element ⟨"a_1", ⟨[("v", "\\\\\""), ("w", "")]⟩⟩
        (.text "<&lt;" (.element ⟨"b", {}⟩ .empty .empty)) .empty
    let text := "<a_1\tv = \"\\\\\\\"\" w=\"\">&lt;&amp;lt;<b\n/></a_1 >".toList
    let receive : Receiver (List Event) Empty := fun event log => .ok (log ++ [event])
    Written document text ∧ document.WellFormed ∧
      (∀ event state, ∃ next, receive event state = .ok next) ∧
      (parse id receive (String.ofList text).toUTF8.data.toList []).2 = none ∧
      (parseLogged id receive (String.ofList text).toUTF8.data.toList []).1.map Event.piece =
        [.start "a_1" ⟨[("v", "\\\\\""), ("w", "")]⟩, .text "<&lt;", .start "b" {},
          .finish "b", .finish "a_1"] := by
  intro document text receive
  have hnone : IsGap [] := by decide
  have hspace : IsGap [' '] := by decide
  have htab : IsGap ['\t'] := by decide
  have hattributes : WrittenAttributes [("v", "\\\\\""), ("w", "")]
      "\tv = \"\\\\\\\"\" w=\"\"".toList :=
    .cons htab (by decide) hspace hspace (.cons hspace (by decide) hnone hnone .nil)
  have hsingle : Written (.element ⟨"b", {}⟩ .empty .empty) "<b\n/>".toList :=
    @Written.single ⟨"b", {}⟩ .empty [] ['\n'] [] .nil (by decide) .empty
  have hwritten : Written document text :=
    @Written.element ⟨"a_1", ⟨[("v", "\\\\\""), ("w", "")]⟩⟩ _ .empty _ [] _ [' '] []
      hattributes hnone (@Written.text "<&lt;" _ _ hsingle) hspace .empty
  have hformed : document.WellFormed := by
    refine ⟨⟨⟨'a', ['_', '1'], rfl, by decide, ?_⟩, ?_, ?_, by decide⟩,
      ⟨by decide, rfl, ⟨⟨'b', [], rfl, by decide, by simp⟩, ?_, ?_, by decide⟩, trivial,
        trivial⟩, trivial⟩
    · intro c hc
      rcases List.mem_pair.mp hc with rfl | rfl <;> decide
    · intro entry hentry
      rcases List.mem_pair.mp hentry with rfl | rfl
      · exact ⟨'v', [], rfl, by decide, by simp⟩
      · exact ⟨'w', [], rfl, by decide, by simp⟩
    · intro entry hentry
      rw [quotable_iff_closedRuns (by decide)]
      revert entry
      decide
    · intro entry hentry
      cases hentry
    · intro entry hentry
      cases hentry
  have htakes : ∀ event state, ∃ next, receive event state = .ok next := by
    intro event state
    exact ⟨_, rfl⟩
  exact ⟨hwritten, hformed, htakes, parse_written hwritten hformed receive htakes []⟩

end PanelSkin.Markup
