import PanelSkin.Proofs.Expr.Concatenation

/-!
Which segments a text is read as. Of all the rows of segments that say the text piece by piece, the
one that is read has no empty literal in it and no two literals side by side. A text without such a
row has an opening brace behind which nothing can be read, and the error is that of the first of
these.
-/

namespace PanelSkin

/-- What a segment is written as: a literal as itself, without an opening brace in it, and any other
segment as a body in braces that is read as the segment. -/
inductive Segment.WrittenAs (tokenId : String → Option Nat) : Segment → List Char → Prop where
  | literal {text : String} (hopen : '{' ∉ text.toList) :
      WrittenAs tokenId (.literal text) text.toList
  | braces {segment : Segment} {body : List Char} (hsome : body ≠ []) (hopen : '{' ∉ body)
      (hclose : '}' ∉ body) (hbody : Template.segmentOf tokenId body = .ok segment) :
      WrittenAs tokenId segment ('{' :: (body ++ ['}']))

namespace Template

/-- No literal is empty, and no two of them stand side by side. -/
structure IsNormal (segments : List Segment) : Prop where
  nonempty : Segment.literal "" ∉ segments
  apart : ∀ x y, ¬ [Segment.literal x, .literal y] <:+: segments

/-- Segments that say a text: one piece of it for each of them, in order. -/
def Says (tokenId : String → Option Nat) (segments : List Segment) (text : List Char) : Prop :=
  ∃ pieces, List.Forall₂ (Segment.WrittenAs tokenId) segments pieces ∧ pieces.flatten = text

/-- Why nothing is read behind an opening brace of the text `whole`. -/
inductive Unreadable (tokenId : String → Option Nat) (whole : String) :
    List Char → ExprError → Prop where
  /-- The text ends, or another brace opens, before one closes. -/
  | unclosed {front rest : List Char} (hclose : '}' ∉ front)
      (hrest : rest = [] ∨ rest.head? = some '{') :
      Unreadable tokenId whole (front ++ rest) (.unterminatedToken whole)
  | empty (rest : List Char) : Unreadable tokenId whole ('}' :: rest) (.emptyToken whole)
  /-- A name that is no variable's and that the host does not know. -/
  | unknown {body rest : List Char} (hsome : body ≠ []) (hopen : '{' ∉ body) (hclose : '}' ∉ body)
      (hname : (body.takeWhile (· != ':')).head? ≠ some '#')
      (hunknown : tokenId (String.ofList (body.takeWhile (· != ':'))) = none) :
      Unreadable tokenId whole (body ++ '}' :: rest)
        (.unknownToken (String.ofList (body.takeWhile (· != ':'))))

variable {tokenId : String → Option Nat} {whole : String}

/-! Normal rows of segments. -/

theorem IsNormal.nil : IsNormal [] where
  nonempty := List.not_mem_nil
  apart x y h := by cases List.infix_nil.mp h

theorem IsNormal.tail {segment : Segment} {rest : List Segment} (h : IsNormal (segment :: rest)) :
    IsNormal rest where
  nonempty hempty := h.nonempty (List.mem_cons_of_mem segment hempty)
  apart x y hside := h.apart x y (hside.trans (List.suffix_cons segment rest).isInfix)

theorem IsNormal.cons {segment : Segment} (h : ∀ text, segment ≠ .literal text)
    {rest : List Segment} (hrest : IsNormal rest) : IsNormal (segment :: rest) where
  nonempty hempty := by
    rcases List.mem_cons.mp hempty with hfirst | hlater
    · exact h "" hfirst.symm
    · exact hrest.nonempty hlater
  apart x y hside := by
    rcases List.infix_cons_iff.mp hside with hfirst | hlater
    · exact h x (List.cons_prefix_cons.mp hfirst).1.symm
    · exact hrest.apart x y hlater

/-- A literal in front of what does not begin with one. -/
theorem IsNormal.literal {text : String} (hsome : text ≠ "") {rest : List Segment}
    (hrest : IsNormal rest) (hfirst : ∀ later, ¬ [Segment.literal later] <+: rest) :
    IsNormal (.literal text :: rest) where
  nonempty hempty := by
    rcases List.mem_cons.mp hempty with hnone | hlater
    · cases hnone
      exact hsome rfl
    · exact hrest.nonempty hlater
  apart x y hside := by
    rcases List.infix_cons_iff.mp hside with hfront | hlater
    · exact hfirst y (List.cons_prefix_cons.mp hfront).2
    · exact hrest.apart x y hlater

/-- Literal text does not run into a literal behind it if the row is normal. -/
theorem IsNormal.appendSegments {text : String} {rest : List Segment}
    (h : IsNormal (.literal text :: rest)) :
    Template.appendSegments [.literal text] rest = .literal text :: rest := by
  rcases rest with _ | ⟨segment, rest⟩
  · rfl
  · apply appendSegments_literal
    rintro later rfl
    exact h.apart text later ⟨[], rest, rfl⟩

/-! What is spelled is the normal row of segments that says the text. -/

theorem Spells.isNormal {s : List Char} {segments : List Segment} (h : Spells tokenId s segments) :
    IsNormal segments := by
  induction h with
  | nil => exact .nil
  | @character c rest segments hc _ ih =>
      have hsingle : String.ofList [c] ≠ "" := by simp
      rcases segments with _ | ⟨first, segments⟩
      · exact ih.literal hsingle fun later hlater =>
          List.cons_ne_nil _ _ (List.prefix_nil.mp hlater)
      · by_cases hliteral : ∃ text, first = .literal text
        · obtain ⟨text, rfl⟩ := hliteral
          refine ih.tail.literal (by simp) fun later hlater => ?_
          exact ih.apart text later (List.prefix_cons_inj _ |>.mpr hlater).isInfix
        · have hother : ∀ text, first ≠ .literal text := not_exists.mp hliteral
          rw [literalSegment, if_neg (by simp), appendSegments_literal hother]
          refine ih.literal hsingle fun later hlater => ?_
          exact hother later (List.cons_prefix_cons.mp hlater).1.symm
  | braces _ _ _ hbody _ ih => exact ih.cons (segmentOf_ne_literal hbody)

theorem Spells.says {s : List Char} {segments : List Segment} (h : Spells tokenId s segments) :
    Says tokenId segments s := by
  induction h with
  | nil => exact ⟨[], .nil, rfl⟩
  | @character c rest segments hc _ ih =>
      obtain ⟨pieces, hpieces, rfl⟩ := ih
      have hsingle : Segment.WrittenAs tokenId (.literal (String.ofList [c])) [c] := by
        simpa using @Segment.WrittenAs.literal tokenId (String.ofList [c])
          (by simpa using Ne.symm hc)
      cases hpieces with
      | nil => exact ⟨[[c]], .cons hsingle .nil, rfl⟩
      | @cons first piece segments pieces hfirst hlater =>
          cases hfirst with
          | @literal text hopen =>
              refine ⟨(c :: text.toList) :: pieces, .cons ?_ hlater, rfl⟩
              simpa using @Segment.WrittenAs.literal tokenId (String.ofList [c] ++ text)
                (by simpa using ⟨Ne.symm hc, hopen⟩)
          | braces hsome hopen hclose hbody =>
              rw [literalSegment, if_neg (by simp),
                appendSegments_literal (segmentOf_ne_literal hbody)]
              exact ⟨_, .cons hsingle (.cons (.braces hsome hopen hclose hbody) hlater), rfl⟩
  | @braces body rest segment segments hsome hopen hclose hbody _ ih =>
      obtain ⟨pieces, hpieces, rfl⟩ := ih
      exact ⟨_, .cons (.braces hsome hopen hclose hbody) hpieces, by simp⟩

theorem spells_of_says {segments : List Segment} {pieces : List (List Char)}
    (hpieces : List.Forall₂ (Segment.WrittenAs tokenId) segments pieces)
    (hnormal : IsNormal segments) : Spells tokenId pieces.flatten segments := by
  induction hpieces with
  | nil => exact .nil
  | cons hfirst _ ih =>
      have hrest := ih hnormal.tail
      cases hfirst with
      | @literal text hopen =>
          have hsome : text.toList.reverse ≠ [] := by
            rintro hnone
            rw [List.reverse_eq_nil_iff, String.toList_eq_nil_iff] at hnone
            exact hnormal.nonempty (hnone ▸ List.mem_cons_self)
          have hspells := (@Spells.literal tokenId _ hopen).append hrest
          rw [literalSegment, if_neg (by simpa using hsome), List.reverse_reverse,
            String.ofList_toList, hnormal.appendSegments] at hspells
          exact hspells
      | braces hsome hopen hclose hbody =>
          simpa using Spells.braces hsome hopen hclose hbody hrest

theorem spells_iff_normal {s : List Char} {segments : List Segment} :
    Spells tokenId s segments ↔ IsNormal segments ∧ Says tokenId segments s := by
  constructor
  · intro h
    exact ⟨h.isNormal, h.says⟩
  · rintro ⟨hnormal, pieces, hpieces, rfl⟩
    exact spells_of_says hpieces hnormal

/-! Texts on which reading fails. -/

theorem segmentOf_eq_error_iff {body : List Char} {e : ExprError} :
    segmentOf tokenId body = .error e ↔
      (body.takeWhile (· != ':')).head? ≠ some '#' ∧
      tokenId (String.ofList (body.takeWhile (· != ':'))) = none ∧
      e = .unknownToken (String.ofList (body.takeWhile (· != ':'))) := by
  unfold segmentOf
  dsimp only
  split
  · rename_i id hname
    simp [hname]
  · rename_i hname
    have hother : (body.takeWhile (· != ':')).head? ≠ some '#' := by
      intro hsharp
      obtain ⟨id, hid⟩ := List.head?_eq_some_iff.mp hsharp
      exact hname id hid
    cases htoken : tokenId (String.ofList (body.takeWhile (· != ':'))) with
    | some id => simp
    | none => simp [hother, eq_comm]

/-- Behind an opening brace nothing is read if there is no readable body. -/
theorem Unreadable.readSegments {behind : List Char} {e : ExprError}
    (h : Unreadable tokenId whole behind e) (pending : List Char) :
    Template.readSegments tokenId whole pending (some []) behind = .error e := by
  cases h with
  | @unclosed front rest hclose hrest =>
      generalize [] = body
      induction front generalizing body with
      | nil =>
          rcases rest with _ | ⟨c, rest⟩
          · rfl
          · obtain rfl : c = '{' := by simpa using hrest
            rw [List.nil_append, Template.readSegments, if_pos rfl]
      | cons c front ih =>
          rw [List.mem_cons, not_or] at hclose
          rw [List.cons_append, Template.readSegments, if_neg (Ne.symm hclose.1)]
          split
          · rfl
          · exact ih hclose.2 _
  | empty rest => rfl
  | @unknown body rest hsome hopen hclose hname hunknown =>
      have hbrace : ¬ '}' = '{' := by decide
      have hempty : ¬ (body.reverse ++ []).isEmpty = true := by simpa using hsome
      have herror := segmentOf_eq_error_iff.mpr ⟨hname, hunknown, rfl⟩
      rw [readSegments_body hopen hclose, Template.readSegments, if_neg hbrace, if_pos rfl,
        if_neg hempty, List.append_nil, List.reverse_reverse, herror]
      rfl

/-- What is spelled does not keep reading from failing further on. -/
theorem Spells.readSegments_error {s rest : List Char} {segments : List Segment} {e : ExprError}
    (h : Spells tokenId s segments)
    (hrest : ∀ pending, Template.readSegments tokenId whole pending none rest = .error e)
    (pending : List Char) :
    Template.readSegments tokenId whole pending none (s ++ rest) = .error e := by
  induction h generalizing pending with
  | nil => exact hrest pending
  | character hc _ ih => rw [List.cons_append, Template.readSegments, if_neg hc, ih]
  | @braces body after segment segments hsome hopen hclose hbody _ ih =>
      have hbrace : ¬ '}' = '{' := by decide
      have hempty : ¬ (body.reverse ++ []).isEmpty = true := by simpa using hsome
      rw [List.cons_append, List.append_assoc, List.cons_append, Template.readSegments, if_pos rfl,
        readSegments_body hopen hclose, Template.readSegments, if_neg hbrace, if_pos rfl,
        if_neg hempty, List.append_nil, List.reverse_reverse, hbody, ih]
      rfl

/-- Behind every opening brace of what is spelled a body is read. -/
theorem Spells.not_unreadable {s before behind : List Char} {segments : List Segment}
    {e : ExprError} (h : Spells tokenId s segments) (hs : s = before ++ '{' :: behind) :
    ¬ Unreadable tokenId whole behind e := by
  intro hunreadable
  induction h generalizing before with
  | nil => simp at hs
  | character hc _ ih =>
      cases before with
      | nil => exact hc (List.cons.inj hs).1
      | cons d before => exact ih (List.cons.inj hs).2
  | @braces body rest segment segments hsome hopen hclose hbody hrest ih =>
      cases before with
      | nil =>
          obtain rfl := (List.cons.inj hs).2
          have hread := @Spells.readSegments tokenId whole _ _
            (.braces hsome hopen hclose hbody hrest) []
          rw [Template.readSegments, if_pos rfl, hunreadable.readSegments] at hread
          cases hread
      | cons d before =>
          rcases List.append_eq_append_iff.mp (List.cons.inj hs).2 with
            ⟨between, -, hrest⟩ | ⟨between, hbody, hbehind⟩
          · rcases between with _ | ⟨c, between⟩
            · exact absurd (List.cons.inj hrest).1 (by decide)
            · exact ih (List.cons.inj hrest).2
          · rcases between with _ | ⟨c, between⟩
            · exact absurd (List.cons.inj hbehind).1 (by decide)
            · obtain ⟨rfl, -⟩ := List.cons.inj hbehind
              exact hopen (hbody ▸ by simp)

theorem exists_body_or_unreadable (tokenId : String → Option Nat) (whole : String)
    (behind : List Char) :
    (∃ body after segment, behind = body ++ '}' :: after ∧ body ≠ [] ∧ '{' ∉ body ∧ '}' ∉ body ∧
      segmentOf tokenId body = .ok segment) ∨ ∃ e, Unreadable tokenId whole behind e := by
  let plain (c : Char) : Bool := c != '{' && c != '}'
  have hplain : ∀ c ∈ behind.takeWhile plain, c ≠ '{' ∧ c ≠ '}' := by
    intro c hc
    simpa [plain] using List.all_eq_true.mp List.all_takeWhile c hc
  have hopen : '{' ∉ behind.takeWhile plain := fun hmem => (hplain _ hmem).1 rfl
  have hclose : '}' ∉ behind.takeWhile plain := fun hmem => (hplain _ hmem).2 rfl
  have hsplit : behind.takeWhile plain ++ behind.dropWhile plain = behind :=
    List.takeWhile_append_dropWhile
  have hstop := List.head?_dropWhile_not plain behind
  generalize behind.takeWhile plain = body at *
  generalize behind.dropWhile plain = rest at *
  subst hsplit
  rcases rest with _ | ⟨c, rest⟩
  · exact Or.inr ⟨_, .unclosed hclose (Or.inl rfl)⟩
  · have hc : c = '{' ∨ c = '}' := Decidable.or_iff_not_imp_left.mpr (by simpa [plain] using hstop)
    rcases hc with rfl | rfl
    · exact Or.inr ⟨_, .unclosed hclose (Or.inr rfl)⟩
    · by_cases hsome : body = []
      · subst hsome
        exact Or.inr ⟨_, .empty rest⟩
      · cases hbody : segmentOf tokenId body with
        | ok segment => exact Or.inl ⟨body, rest, segment, rfl, hsome, hopen, hclose, hbody⟩
        | error e =>
            obtain ⟨hname, hunknown, rfl⟩ := segmentOf_eq_error_iff.mp hbody
            exact Or.inr ⟨_, .unknown hsome hopen hclose hname hunknown⟩

/-- A text is spelled by some segments, or else by what stands before the first opening brace
behind which nothing can be read. -/
theorem spells_or_unreadable (tokenId : String → Option Nat) (whole : String) (s : List Char) :
    (∃ segments, Spells tokenId s segments) ∨
      ∃ before behind segments e, s = before ++ '{' :: behind ∧
        Spells tokenId before segments ∧ Unreadable tokenId whole behind e := by
  induction hlength : s.length using Nat.strongRecOn generalizing s with
  | ind length ih =>
    cases s with
    | nil => exact Or.inl ⟨[], .nil⟩
    | cons c rest =>
        by_cases hc : c = '{'
        · subst hc
          rcases exists_body_or_unreadable tokenId whole rest with
            ⟨body, after, segment, rfl, hsome, hopen, hclose, hbody⟩ | ⟨e, hunreadable⟩
          · rcases ih after.length (by simp at hlength; omega) after rfl with
              ⟨segments, hafter⟩ | ⟨before, behind, segments, e, rfl, hbefore, hunreadable⟩
            · exact Or.inl ⟨_, .braces hsome hopen hclose hbody hafter⟩
            · exact Or.inr ⟨_, behind, _, e, by simp,
                .braces hsome hopen hclose hbody hbefore, hunreadable⟩
          · exact Or.inr ⟨[], rest, [], e, rfl, .nil, hunreadable⟩
        · rcases ih rest.length (by simp at hlength; omega) rest rfl with
            ⟨segments, hrest⟩ | ⟨before, behind, segments, e, rfl, hbefore, hunreadable⟩
          · exact Or.inl ⟨_, .character hc hrest⟩
          · exact Or.inr ⟨_, behind, _, e, rfl, .character hc hbefore, hunreadable⟩

theorem readTokens_eq_error_iff {text : String} {e : ExprError} :
    readTokens tokenId text = .error e ↔
      ∃ before behind segments, text.toList = before ++ '{' :: behind ∧
        Spells tokenId before segments ∧ Unreadable tokenId text behind e := by
  constructor
  · intro h
    rcases spells_or_unreadable tokenId text text.toList with
      ⟨segments, hspells⟩ | ⟨before, behind, segments, cause, htext, hbefore, hunreadable⟩
    · have hread : readTokens tokenId text = .ok ⟨segments⟩ := readTokens_eq_ok_iff.mpr hspells
      rw [hread] at h
      cases h
    · have hfails : Template.readSegments tokenId text [] none (before ++ '{' :: behind) =
          .error cause :=
        hbefore.readSegments_error
          (fun pending => by rw [readSegments, if_pos rfl, hunreadable.readSegments]) []
      rw [readTokens, htext, hfails] at h
      cases h
      exact ⟨before, behind, segments, htext, hbefore, hunreadable⟩
  · rintro ⟨before, behind, segments, htext, hbefore, hunreadable⟩
    rw [readTokens, htext, hbefore.readSegments_error
      (fun pending => by rw [readSegments, if_pos rfl, hunreadable.readSegments])]
    rfl

/-! Templates without tokens and variables. -/

theorem asLiteral?_literal (text : String) : (literal text).asLiteral? = some text := by
  by_cases hempty : text = ""
  · rw [hempty]
    rfl
  · simp [literal, hempty, asLiteral?]

/-- A template is a literal if no brace opens in its text, and is then the text. -/
theorem asLiteral?_of_spells {text : String} {t : Template}
    (h : Spells tokenId text.toList t.segments) :
    t.asLiteral? = if '{' ∈ text.toList then none else some text := by
  split
  · rename_i hopen
    obtain ⟨pieces, hpieces, htext⟩ := h.says
    rw [← htext] at hopen
    unfold asLiteral?
    split
    · rename_i hnone
      rw [hnone] at hpieces
      cases hpieces
      cases hopen
    · rename_i x hliteral
      rw [hliteral] at hpieces
      obtain _ | ⟨hfirst, ⟨⟩⟩ := hpieces
      cases hfirst with
      | literal hclear => simp [hclear] at hopen
      | braces _ _ _ hbody => exact absurd rfl (segmentOf_ne_literal hbody x)
    · rfl
  · rename_i hopen
    have hliteral : readTokens tokenId text = .ok (literal text) := by
      rw [readTokens_eq_ok_iff, segments_literal]
      exact .literal hopen
    rw [readTokens_eq_ok_iff.mpr h] at hliteral
    cases hliteral
    exact asLiteral?_literal text

theorem isEmpty_iff_of_spells {text : String} {t : Template}
    (h : Spells tokenId text.toList t.segments) : t.isEmpty = true ↔ text = "" := by
  rw [isEmpty, List.isEmpty_iff, ← String.toList_eq_nil_iff]
  constructor
  · intro hnone
    rw [hnone] at h
    obtain ⟨pieces, ⟨⟩, htext⟩ := h.says
    exact htext.symm
  · intro hnone
    rw [hnone] at h
    cases hsegments : t.segments with
    | nil => rfl
    | cons => rw [hsegments] at h; cases h

/-- Segments are normal. A text that does not stand for a variable is read as the one row of
segments that says it piece by piece, literals as themselves and all else in braces, without an
empty literal and without two literals side by side. So the template is a literal exactly if no
brace opens in the text, of which it then has all, and it is empty only if the text is. Reading
fails exactly if there is an opening brace behind which no body closes, or an empty one, or one
whose name is no variable's and not known to the host; the error is that of the first such brace,
in front of which all can be read. -/
theorem segments_are_normal {m : Type → Type} [Monad m] (lookups : Lookups m) {text : String}
    (hplain : ¬ IsReference text) :
    ∃ outcome : Except ExprError Template, parse lookups text = pure outcome ∧
      (∀ t, outcome = .ok t ↔
        IsNormal t.segments ∧ Says lookups.tokenId t.segments text.toList) ∧
      (∀ t, outcome = .ok t →
        t.asLiteral? = (if '{' ∈ text.toList then none else some text) ∧
        (t.isEmpty = true ↔ text = "")) ∧
      ((∃ e, outcome = .error e) ↔ ∃ before behind e, text.toList = before ++ '{' :: behind ∧
        Unreadable lookups.tokenId text behind e) ∧
      ∀ e, outcome = .error e ↔ ∃ before behind segments, text.toList = before ++ '{' :: behind ∧
        Spells lookups.tokenId before segments ∧ Unreadable lookups.tokenId text behind e := by
  refine ⟨readTokens lookups.tokenId text, parse_eq_readTokens hplain, ?_, ?_, ?_, ?_⟩
  · intro t
    rw [readTokens_eq_ok_iff, spells_iff_normal]
  · intro t ht
    have hspells := readTokens_eq_ok_iff.mp ht
    exact ⟨asLiteral?_of_spells hspells, isEmpty_iff_of_spells hspells⟩
  · constructor
    · rintro ⟨e, he⟩
      obtain ⟨before, behind, -, htext, -, hunreadable⟩ := readTokens_eq_error_iff.mp he
      exact ⟨before, behind, e, htext, hunreadable⟩
    · rintro ⟨before, behind, e, htext, hunreadable⟩
      cases hread : readTokens lookups.tokenId text with
      | error cause => exact ⟨cause, rfl⟩
      | ok t => exact absurd hunreadable ((readTokens_eq_ok_iff.mp hread).not_unreadable htext)
  · intro e
    exact readTokens_eq_error_iff

/-- A closing brace in literal text, and a text whose second body does not close. -/
theorem segments_are_normal_of_second_brace :
    let lookups : Lookups Id :=
      { emptyWorld with tokenId := fun name => if name = "vol" then some 7 else none }
    let text := "x\x7d\x7bvol\x7d-"
    let t : Template := ⟨[.literal "x\x7d", .token { name := "vol", id := 7 }, .literal "-"]⟩
    let broken := "\x7bvol\x7d\x7bvol \x7bvol\x7d"
    ¬ IsReference text ∧ ¬ IsReference broken ∧
      parse lookups text = pure (.ok t) ∧ IsNormal t.segments ∧
      Says lookups.tokenId t.segments text.toList ∧ t.asLiteral? = none ∧
      parse lookups broken = pure (.error (.unterminatedToken broken)) ∧
      ∃ before behind segments, broken.toList = before ++ '{' :: behind ∧
        Spells lookups.tokenId before segments ∧
        Unreadable lookups.tokenId broken behind (.unterminatedToken broken) := by
  intro lookups text t broken
  have hplain (s : String) (hstart : s.toList.head? ≠ some '#') : ¬ IsReference s := by
    rintro ⟨id, -, hs⟩
    exact hstart (by rw [hs, List.head?_cons])
  have htext : ¬ IsReference text := hplain _ (by decide)
  have hbroken : ¬ IsReference broken := hplain _ (by decide)
  have hparse : parse lookups "x\x7d\x7bvol\x7d-" = pure (.ok t) := rfl
  have hfails : parse lookups "\x7bvol\x7d\x7bvol \x7bvol\x7d" =
      pure (.error (.unterminatedToken "\x7bvol\x7d\x7bvol \x7bvol\x7d")) := rfl
  obtain ⟨outcome, hsame, hread, hliteral, -⟩ := segments_are_normal lookups htext
  obtain rfl : Except.ok t = outcome := hparse.symm.trans hsame
  obtain ⟨cause, hsame', -, -, -, hfirst⟩ := segments_are_normal lookups hbroken
  obtain rfl : Except.error (.unterminatedToken broken) = cause := hfails.symm.trans hsame'
  obtain ⟨hnormal, hsays⟩ := (hread t).mp rfl
  have hopen : t.asLiteral? = none := (hliteral t rfl).1.trans (if_pos (by decide))
  exact ⟨htext, hbroken, hparse, hnormal, hsays, hopen, hfails, (hfirst _).mp rfl⟩

end Template

end PanelSkin
