import PanelSkin.Proofs.Expr.Execution

/-!
Templates of texts that are put together. Reading a template can be told from its text alone, from
right to left: a character outside of braces goes in front of the literal text that follows it, or
is one of its own, and a body in braces is the segment it is read as. So what stands before a text
does not change how the text is read but for the seam, where literal text of both sides is joined;
and this shows neither in the tokens nor in what the segments say one after the other.
-/

namespace PanelSkin

namespace Template

/-- Segments in a row. Literal text on both sides of the seam is one literal text. -/
def appendSegments : List Segment → List Segment → List Segment
  | [], later => later
  | [.literal x], .literal y :: later => .literal (x ++ y) :: later
  | segment :: rest, later => segment :: appendSegments rest later

/-- Two templates in a row. -/
def append (t u : Template) : Template := ⟨appendSegments t.segments u.segments⟩

/-- The segments that a text is made of. -/
inductive Spells (tokenId : String → Option Nat) : List Char → List Segment → Prop where
  | nil : Spells tokenId [] []
  | character {c : Char} {rest : List Char} {segments : List Segment} (hc : c ≠ '{')
      (hrest : Spells tokenId rest segments) :
      Spells tokenId (c :: rest) (appendSegments (literalSegment [c]) segments)
  | braces {body rest : List Char} {segment : Segment} {segments : List Segment}
      (hsome : body ≠ []) (hopen : '{' ∉ body) (hclose : '}' ∉ body)
      (hbody : segmentOf tokenId body = .ok segment) (hrest : Spells tokenId rest segments) :
      Spells tokenId ('{' :: (body ++ '}' :: rest)) (segment :: segments)

theorem appendSegments_nil (segments : List Segment) : appendSegments segments [] = segments := by
  induction segments with
  | nil => rfl
  | cons segment rest ih => simp [appendSegments, ih]

theorem appendSegments_cons {segment : Segment} (h : ∀ text, segment ≠ .literal text)
    (rest later : List Segment) :
    appendSegments (segment :: rest) later = segment :: appendSegments rest later := by
  rw [appendSegments]
  intro x y later' hlater hsegment
  exact absurd hsegment (h x)

theorem appendSegments_literal {segment : Segment} (h : ∀ text, segment ≠ .literal text)
    (text : String) (later : List Segment) :
    appendSegments [.literal text] (segment :: later) = .literal text :: segment :: later := by
  rw [appendSegments, appendSegments]
  rintro x y later' heq
  exact absurd (List.cons.inj heq).1 (h y)

/-- Literal text before two rows of segments. -/
theorem literalSegment_assoc (pending : List Char) (first later : List Segment) :
    appendSegments (literalSegment pending) (appendSegments first later) =
      appendSegments (appendSegments (literalSegment pending) first) later := by
  unfold literalSegment
  split
  · rfl
  · rcases first with _ | ⟨_ | _ | _, rest⟩
    · rw [appendSegments, appendSegments_nil]
    · rcases rest with _ | ⟨segment, rest⟩
      · rcases later with _ | ⟨_ | _ | _, later⟩ <;> simp [appendSegments, String.append_assoc]
      · simp [appendSegments]
    · simp [appendSegments]
    · simp [appendSegments]

/-- Literal text is kept backwards, so what comes later in the text stands first. -/
theorem literalSegment_append (later pending : List Char) :
    literalSegment (later ++ pending) =
      appendSegments (literalSegment pending) (literalSegment later) := by
  cases pending with
  | nil => rw [List.append_nil]; rfl
  | cons c pending =>
      cases later with
      | nil => rfl
      | cons d later =>
          rw [literalSegment, List.reverse_append, String.ofList_append]
          rfl

theorem literalSegment_cons (c : Char) (pending : List Char) (segments : List Segment) :
    appendSegments (literalSegment (c :: pending)) segments =
      appendSegments (literalSegment pending) (appendSegments (literalSegment [c]) segments) := by
  rw [literalSegment_assoc, ← literalSegment_append, List.singleton_append]

theorem appendSegments_literalSegment {segment : Segment} (h : ∀ text, segment ≠ .literal text)
    (pending : List Char) (segments : List Segment) :
    appendSegments (literalSegment pending) (segment :: segments) =
      literalSegment pending ++ segment :: segments := by
  cases pending with
  | nil => rfl
  | cons c pending => exact appendSegments_literal h _ _

theorem segmentOf_ne_literal {tokenId : String → Option Nat} {body : List Char} {segment : Segment}
    (h : segmentOf tokenId body = .ok segment) (text : String) : segment ≠ .literal text := by
  rintro rfl
  unfold segmentOf at h
  dsimp only at h
  split at h
  · cases h
  · split at h <;> cases h

variable {tokenId : String → Option Nat} {whole : String}

theorem readSegments_body {more : List Char} (hopen : '{' ∉ more) (hclose : '}' ∉ more)
    (pending body rest : List Char) :
    readSegments tokenId whole pending (some body) (more ++ rest) =
      readSegments tokenId whole pending (some (more.reverse ++ body)) rest := by
  induction more generalizing body with
  | nil => rfl
  | cons c more ih =>
      rw [List.mem_cons, not_or] at hopen hclose
      rw [List.cons_append, readSegments, if_neg (Ne.symm hopen.1), if_neg (Ne.symm hclose.1),
        ih hopen.2 hclose.2]
      simp

/-- What is spelled is read, behind any literal text. -/
theorem Spells.readSegments {s : List Char} {segments : List Segment}
    (h : Spells tokenId s segments) (pending : List Char) :
    readSegments tokenId whole pending none s =
      .ok (appendSegments (literalSegment pending) segments) := by
  induction h generalizing pending with
  | nil => rw [Template.readSegments, appendSegments_nil]
  | character hc hrest ih =>
      rw [Template.readSegments, if_neg hc, ih, literalSegment_cons]
  | @braces body rest segment segments hsome hopen hclose hbody hrest ih =>
      have hbrace : ¬ '}' = '{' := by decide
      have hempty : ¬ (body.reverse ++ []).isEmpty = true := by simpa using hsome
      rw [Template.readSegments, if_pos rfl, readSegments_body hopen hclose, Template.readSegments,
        if_neg hbrace, if_pos rfl, if_neg hempty, List.append_nil, List.reverse_reverse, hbody, ih,
        appendSegments_literalSegment (segmentOf_ne_literal hbody)]
      rfl

/-- What is read is spelled; inside of braces the body ends with the next brace. -/
theorem exists_spells_of_readSegments {pending : List Char} {place : Option (List Char)}
    {s : List Char} {segments : List Segment}
    (h : Template.readSegments tokenId whole pending place s = .ok segments) :
    match place with
    | none => ∃ following, Spells tokenId s following ∧
        segments = appendSegments (literalSegment pending) following
    | some body => ∃ more rest segment following, s = more ++ '}' :: rest ∧ '{' ∉ more ∧
        '}' ∉ more ∧ body.reverse ++ more ≠ [] ∧
        segmentOf tokenId (body.reverse ++ more) = .ok segment ∧ Spells tokenId rest following ∧
        segments = literalSegment pending ++ segment :: following := by
  induction pending, place, s using readSegments.induct generalizing segments with
  | case1 pending =>
      cases h
      exact ⟨[], .nil, (appendSegments_nil _).symm⟩
  | case2 pending body => cases h
  | case3 pending rest ih =>
      rw [Template.readSegments, if_pos rfl] at h
      obtain ⟨more, rest, segment, following, rfl, hopen, hclose, hsome, hbody, hrest, rfl⟩ := ih h
      exact ⟨_, .braces hsome hopen hclose hbody hrest,
        (appendSegments_literalSegment (segmentOf_ne_literal hbody) _ _).symm⟩
  | case4 pending c rest hc ih =>
      rw [Template.readSegments, if_neg hc] at h
      obtain ⟨following, hrest, rfl⟩ := ih h
      exact ⟨_, .character hc hrest, literalSegment_cons _ _ _⟩
  | case5 pending body rest =>
      rw [Template.readSegments, if_pos rfl] at h
      cases h
  | case6 pending body rest hempty =>
      have hbrace : ¬ '}' = '{' := by decide
      rw [Template.readSegments, if_neg hbrace, if_pos rfl, if_pos hempty] at h
      cases h
  | case7 pending body rest hsome hbrace ih =>
      rw [Template.readSegments, if_neg hbrace, if_pos rfl, if_neg hsome] at h
      cases hbody : segmentOf tokenId body.reverse with
      | error e =>
          rw [hbody] at h
          cases h
      | ok segment =>
          cases hrest : Template.readSegments tokenId whole [] none rest with
          | error e =>
              rw [hbody, hrest] at h
              cases h
          | ok later =>
              rw [hbody, hrest] at h
              cases h
              obtain ⟨_, hlater, rfl⟩ := ih hrest
              refine ⟨[], rest, segment, later, rfl, List.not_mem_nil, List.not_mem_nil, ?_, ?_,
                hlater, rfl⟩
              · simpa using hsome
              · rw [List.append_nil, hbody]
  | case8 pending body c rest hopen hclose ih =>
      rw [Template.readSegments, if_neg hopen, if_neg hclose] at h
      obtain ⟨more, after, segment, following, rfl, hmore, hmore', hsome, hbody, hrest, rfl⟩ := ih h
      rw [List.reverse_cons, List.append_assoc, List.singleton_append] at hsome hbody
      refine ⟨c :: more, after, segment, following, rfl, ?_, ?_, hsome, hbody, hrest, rfl⟩
      · rw [List.mem_cons, not_or]
        exact ⟨Ne.symm hopen, hmore⟩
      · rw [List.mem_cons, not_or]
        exact ⟨Ne.symm hclose, hmore'⟩

theorem readTokens_eq_ok_iff {text : String} {t : Template} :
    readTokens tokenId text = .ok t ↔ Spells tokenId text.toList t.segments := by
  unfold readTokens
  constructor
  · intro h
    cases hread : Template.readSegments tokenId text [] none text.toList with
    | error e =>
        rw [hread] at h
        cases h
    | ok segments =>
        rw [hread] at h
        cases h
        obtain ⟨following, hspells, rfl⟩ := exists_spells_of_readSegments hread
        exact hspells
  · intro h
    rw [h.readSegments]
    rfl

/-! What two texts in a row spell. -/

theorem Spells.append {a b : List Char} {first later : List Segment} (ha : Spells tokenId a first)
    (hb : Spells tokenId b later) : Spells tokenId (a ++ b) (appendSegments first later) := by
  induction ha with
  | nil => exact hb
  | character hc _ ih =>
      rw [← literalSegment_assoc]
      exact .character hc ih
  | braces hsome hopen hclose hbody _ ih =>
      rw [appendSegments_cons (segmentOf_ne_literal hbody)]
      simpa using Spells.braces hsome hopen hclose hbody ih

theorem tokens_append (t u : Template) : (t.append u).tokens = t.tokens ++ u.tokens := by
  obtain ⟨first⟩ := t
  obtain ⟨later⟩ := u
  unfold append
  dsimp only
  induction first, later using appendSegments.induct with
  | case1 later => rfl
  | case2 x y later => rfl
  | case3 segment rest later hseam ih =>
      rw [appendSegments]
      · cases segment <;> simp [tokens] at * <;> exact ih
      · exact hseam

section Joining

variable {n : Type → Type} [Monad n] [LawfulMonad n] {lookups : Lookups n}

theorem joined_appendSegments (first later : List Segment) :
    Segment.joined lookups (appendSegments first later) = do
      let x ← Segment.joined lookups first
      let y ← Segment.joined lookups later
      return x ++ y := by
  induction first, later using appendSegments.induct with
  | case1 later => simp only [appendSegments, Segment.joined, pure_bind, String.empty_append,
      bind_pure]
  | case2 x y later =>
      simp only [appendSegments, Segment.joined, Segment.value, Value.asText, pure_bind, bind_assoc,
        String.append_assoc, String.empty_append]
  | case3 segment rest later hseam ih =>
      rw [appendSegments]
      · simp only [Segment.joined, ih, bind_assoc, pure_bind, String.append_assoc]
      · exact hseam

theorem asText_evaluate (t : Template) :
    Value.asText <$> t.evaluate lookups = Segment.joined lookups t.segments := by
  unfold evaluate
  split
  · rename_i hsegments
    simp [hsegments, Segment.joined, Value.asText]
  · rename_i segment hsegments
    simp [hsegments, Segment.joined]
  · simp [Value.asText]

/-- In any surroundings two templates in a row say what they say one after the other. -/
theorem asText_evaluate_append (t u : Template) :
    Value.asText <$> (t.append u).evaluate lookups = do
      let x ← t.evaluate lookups
      let y ← u.evaluate lookups
      return x.asText ++ y.asText := by
  rw [asText_evaluate, append, joined_appendSegments, ← asText_evaluate, ← asText_evaluate]
  simp

end Joining

/-! Texts without braces, and texts that stand for a variable. -/

theorem Spells.literal {text : List Char} (h : '{' ∉ text) :
    Spells tokenId text (literalSegment text.reverse) := by
  induction text with
  | nil => exact .nil
  | cons c rest ih =>
      rw [List.mem_cons, not_or] at h
      rw [List.reverse_cons, literalSegment_append]
      exact .character (Ne.symm h.1) (ih h.2)

theorem segments_literal (text : String) :
    (literal text).segments = literalSegment text.toList.reverse := by
  by_cases hempty : text = ""
  · rw [hempty]
    rfl
  · simp [literal, literalSegment, hempty]

theorem tokens_literal (text : String) : (literal text).tokens = [] := by
  rw [tokens, segments_literal, literalSegment]
  split <;> rfl

theorem evaluate_literal {n : Type → Type} [Monad n] (lookups : Lookups n) (text : String) :
    (literal text).evaluate lookups = pure (.text text) := by
  by_cases hempty : text = ""
  · rw [hempty]
    rfl
  · simp [literal, hempty, evaluate, Segment.value]

/-- A text of the form `#id`. -/
def IsReference (text : String) : Prop := ∃ id, isIdentifier id = true ∧ text.toList = '#' :: id

theorem wholeReference?_eq_none_iff {text : String} :
    wholeReference? text.toList = none ↔ ¬ IsReference text := by
  unfold wholeReference? IsReference
  split
  · rename_i id htext
    rw [htext]
    simp
  · rename_i hplain
    simp only [true_iff, not_exists, not_and]
    exact fun id _ htext => hplain id htext

variable {m : Type → Type} [Monad m] {lookups : Lookups m} {text : String} {t : Template}

theorem parse_eq_readTokens (h : ¬ IsReference text) :
    parse lookups text = pure (readTokens lookups.tokenId text) := by
  rw [parse, wholeReference?_eq_none_iff.mpr h]

theorem parse_of_spells (h : ¬ IsReference text)
    (ht : Spells lookups.tokenId text.toList t.segments) :
    parse lookups text = pure (.ok t) := by
  rw [parse_eq_readTokens h, readTokens_eq_ok_iff.mpr ht]

theorem spells_of_parse {σ : Type} {E : Execution m σ} {s s' : σ} (h : ¬ IsReference text)
    (hrun : E.run (parse lookups text) s = some (.ok t, s')) :
    Spells lookups.tokenId text.toList t.segments := by
  rw [parse_eq_readTokens h, Execution.run_pure_eq_some] at hrun
  exact readTokens_eq_ok_iff.mp hrun.1

/-- Texts that do not stand for a variable, neither by themselves nor together, are templates
together if each of them is one. The tokens are those of both, and so is what is said, in whatever
surroundings it is evaluated; but for the seam the segments are, too. Text that no brace opens in
is a template without tokens, which has just this text for its value. -/
theorem templates_concatenate {m : Type → Type} {σ : Type} [Monad m] (E : Execution m σ)
    (lookups : Lookups m) :
    (∀ (a b : String) (t u : Template) (s s' r r' : σ),
      ¬ IsReference a → ¬ IsReference (a ++ b) → ¬ IsReference b →
      E.run (parse lookups a) s = some (.ok t, s') → E.run (parse lookups b) r = some (.ok u, r') →
      parse lookups (a ++ b) = pure (.ok (t.append u)) ∧
      (t.append u).tokens = t.tokens ++ u.tokens ∧
      ∀ {n : Type → Type} [Monad n] [LawfulMonad n] (now : Lookups n),
        Value.asText <$> (t.append u).evaluate now = do
          let x ← t.evaluate now
          let y ← u.evaluate now
          return x.asText ++ y.asText) ∧
    ∀ text : String, '{' ∉ text.toList → ¬ IsReference text →
      parse lookups text = pure (.ok (literal text)) ∧ (literal text).tokens = [] ∧
      ∀ {n : Type → Type} [Monad n] (now : Lookups n),
        (literal text).evaluate now = pure (.text text) := by
  constructor
  · intro a b t u s s' r r' ha hab hb hrun hrun'
    have hspells : Spells lookups.tokenId (a ++ b).toList (t.append u).segments := by
      rw [String.toList_append]
      exact (spells_of_parse ha hrun).append (spells_of_parse hb hrun')
    exact ⟨parse_of_spells hab hspells, tokens_append t u, fun now => asText_evaluate_append t u⟩
  · intro text hopen hplain
    have hspells : Spells lookups.tokenId text.toList (literal text).segments := by
      rw [segments_literal]
      exact .literal hopen
    exact ⟨parse_of_spells hplain hspells, tokens_literal text,
      fun now => evaluate_literal now text⟩

/-- A closing brace without an opening one, and literal text on both sides of the seam. -/
theorem templates_concatenate_of_seam :
    let lookups : Lookups Id :=
      { emptyWorld with tokenId := fun name => if name = "vol" then some 7 else none }
    let t : Template := ⟨[.literal "x\x7d", .token { name := "vol", id := 7 }, .literal "-"]⟩
    let u : Template := ⟨[.literal "+", .reference "i", .literal "\x7d"]⟩
    let w : Template := ⟨[.literal "x\x7d", .token { name := "vol", id := 7 }, .literal "-+",
      .reference "i", .literal "\x7d"]⟩
    parse lookups "x\x7d\x7bvol\x7d-" = pure (.ok t) ∧
      parse lookups "+\x7b#i\x7d\x7d" = pure (.ok u) ∧
      parse lookups ("x\x7d\x7bvol\x7d-" ++ "+\x7b#i\x7d\x7d") = pure (.ok w) ∧
      parse lookups "100%" = pure (.ok (literal "100%")) := by
  intro lookups t u w
  have hplain (text : String) (hstart : text.toList.head? ≠ some '#') : ¬ IsReference text := by
    rintro ⟨id, -, htext⟩
    exact hstart (by rw [htext, List.head?_cons])
  obtain ⟨hconcat, hliteral⟩ := templates_concatenate Execution.immediate lookups
  obtain ⟨hparse, -⟩ := hconcat "x\x7d\x7bvol\x7d-" "+\x7b#i\x7d\x7d" t u () () () ()
    (hplain _ (by decide)) (hplain _ (by decide)) (hplain _ (by decide)) rfl rfl
  exact ⟨rfl, rfl, hparse, (hliteral "100%" (by decide) (hplain _ (by decide))).1⟩

end Template

end PanelSkin
