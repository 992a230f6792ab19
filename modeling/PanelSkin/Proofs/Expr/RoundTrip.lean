import PanelSkin.Expr.Parser
import PanelSkin.Proofs.Expr.Correspondence
import PanelSkin.Proofs.Text.Blank
import PanelSkin.Proofs.Text.Numeral

/-!
Reading undoes writing: every text that an expression may be written as is read as that
expression. The proof follows the writing. Each written part is read up to its end, whatever
stands behind it, and the length of what is written bounds the depth of reading.
-/

namespace PanelSkin.Expr

open Text (toNat_of_isAlpha toNat_of_isDigit trimStart_gap trimStart_cons trimStart_trimStart)

/-- Blanks, as many as one likes. -/
def IsGap (gap : List Char) : Prop := ∀ c ∈ gap, Text.isBlank c = true

instance (gap : List Char) : Decidable (IsGap gap) :=
  decidable_of_iff (gap.all Text.isBlank = true) List.all_eq_true

/-- A text as it stands between quotes: a quote in it takes a backslash. -/
def escapeQuotes (s : List Char) : List Char :=
  s.flatMap fun c => if c = '\'' then ['\\', '\''] else [c]

mutual

/-- The texts that an expression may be written as, without the blanks around it. A text stands in
quotes, and is read as a template. -/
inductive Written (tokenId : String → Option Nat) : Expr → List Char → Prop where
  | number (n : Int64) : Written tokenId (.number n) (Text.decimal n.toInt)
  | reference {id : List Char} (hid : isIdentifier id = true) :
      Written tokenId (.reference (String.ofList id)) ('#' :: id)
  | text {s : List Char} {template : Template} (hlast : s.getLast? ≠ some '\\')
      (hplain : wholeReference? s = none)
      (hreads : Template.readTokens tokenId (String.ofList s) = .ok template) :
      Written tokenId (.text template) ('\'' :: escapeQuotes s ++ ['\''])
  | call {op : Operator} {args : List Expr} {gap written : List Char}
      (harity : op.arity.accepts args.length = true) (hgap : IsGap gap)
      (hargs : WrittenArgs tokenId args written) :
      Written tokenId (.call op args) (op.name.toList ++ gap ++ '(' :: written)

/-- The texts that the arguments of a call may be written as, up to the closing parenthesis. -/
inductive WrittenArgs (tokenId : String → Option Nat) : List Expr → List Char → Prop where
  | last {arg : Expr} {before written after : List Char} (hbefore : IsGap before)
      (harg : Written tokenId arg written) (hafter : IsGap after) :
      WrittenArgs tokenId [arg] (before ++ written ++ after ++ [')'])
  | more {arg : Expr} {args : List Expr} {before written after others : List Char}
      (hbefore : IsGap before) (harg : Written tokenId arg written) (hafter : IsGap after)
      (hargs : WrittenArgs tokenId args others) :
      WrittenArgs tokenId (arg :: args) (before ++ written ++ after ++ ',' :: others)

end

/-! Quoted texts. -/

/-- Apart from quotes, and from backslashes before quotes, characters stand for themselves. -/
theorem readQuoted_cons {c : Char} {rest : List Char} (hquote : c ≠ '\'')
    (hescape : c = '\\' → rest.head? ≠ some '\'') :
    readQuoted (c :: rest) =
      (readQuoted rest).map fun (quoted, after) => (c :: quoted, after) := by
  rw [readQuoted]
  · rintro behind hc rfl
    exact hescape hc rfl
  · exact hquote

private theorem head?_escapeQuotes_append {s : List Char} (hsome : s ≠ []) (rest : List Char) :
    (escapeQuotes s ++ rest).head? ≠ some '\'' := by
  cases s with
  | nil => exact absurd rfl hsome
  | cons c s =>
      by_cases hquote : c = '\''
      · simp [escapeQuotes, hquote]
      · simp [escapeQuotes, hquote]

/-- Escaping is undone, unless a backslash at the end takes the closing quote for its own. -/
theorem readQuoted_escapeQuotes {s : List Char} (hlast : s.getLast? ≠ some '\\')
    (rest : List Char) : readQuoted (escapeQuotes s ++ '\'' :: rest) = some (s, rest) := by
  induction s with
  | nil => rfl
  | cons c s ih =>
      have hquoted : readQuoted (escapeQuotes s ++ '\'' :: rest) = some (s, rest) := by
        apply ih
        intro h
        simp [List.getLast?_cons, h] at hlast
      by_cases hquote : c = '\''
      · subst hquote
        rw [escapeQuotes, List.flatMap_cons, if_pos rfl, ← escapeQuotes]
        simp only [List.cons_append, List.nil_append, readQuoted, hquoted, Option.map_some]
      · have hescape : c = '\\' → (escapeQuotes s ++ '\'' :: rest).head? ≠ some '\'' := by
          rintro rfl
          apply head?_escapeQuotes_append
          rintro rfl
          simp at hlast
        rw [escapeQuotes, List.flatMap_cons, if_neg hquote, ← escapeQuotes,
          List.singleton_append, List.cons_append, readQuoted_cons hquote hescape, hquoted]
        rfl

theorem eq_cons_of_readQuoted_nil {s after : List Char} (h : readQuoted s = some ([], after)) :
    s = '\'' :: after := by
  cases s using readQuoted.fun_cases with
  | case1 => cases h
  | case2 rest =>
      obtain ⟨inner, -, hquoted⟩ := Option.map_eq_some_iff.mp h
      cases hquoted
  | case3 rest =>
      cases h
      rfl
  | case4 c rest hescape hquote =>
      rw [readQuoted] at h
      · obtain ⟨inner, -, hquoted⟩ := Option.map_eq_some_iff.mp h
        cases hquoted
      · exact hescape
      · exact hquote

/-- No quoted text ends in a backslash. -/
theorem getLast?_of_readQuoted {s quoted after : List Char}
    (h : readQuoted s = some (quoted, after)) : quoted.getLast? ≠ some '\\' := by
  induction s using readQuoted.induct generalizing quoted with
  | case1 => cases h
  | case2 rest ih =>
      obtain ⟨⟨inner, behind⟩, hinner, hquoted⟩ := Option.map_eq_some_iff.mp h
      cases hquoted
      have hlast := ih hinner
      cases inner with
      | nil => simp
      | cons d inner => simpa [List.getLast?_cons_cons] using hlast
  | case3 rest =>
      cases h
      simp
  | case4 c rest hescape hquote ih =>
      rw [readQuoted] at h
      · obtain ⟨⟨inner, behind⟩, hinner, hquoted⟩ := Option.map_eq_some_iff.mp h
        cases hquoted
        have hlast := ih hinner
        cases inner with
        | nil =>
            have hrest := eq_cons_of_readQuoted_nil hinner
            simpa using fun hc => hescape _ hc hrest
        | cons d inner => simpa [List.getLast?_cons_cons] using hlast
      · exact hescape
      · exact hquote

/-! Where names, numbers and gaps end. -/

/-- What stands here continues no name and no number. -/
def Ends (rest : List Char) : Prop := ∀ c ∈ rest.head?, isIdentifierChar c = false

theorem isIdentifierChar_of_isIdentifierStart {c : Char} (h : isIdentifierStart c = true) :
    isIdentifierChar c = true := by
  unfold isIdentifierStart at h
  unfold isIdentifierChar Char.isAlphanum
  rcases Bool.or_eq_true_iff.mp h with hletter | hunderscore
  · simp only [hletter, Bool.true_or]
  · simp only [hunderscore, Bool.or_true]

/-- A character that starts a name starts nothing else. -/
theorem other_of_isIdentifierStart {c : Char} (h : isIdentifierStart c = true) :
    c ≠ '\'' ∧ c ≠ '{' ∧ c ≠ '#' ∧ ¬ (c = '-' ∨ c = '+' ∨ c.isDigit = true) := by
  refine ⟨?_, ?_, ?_, ?_⟩
  · rintro rfl
    cases h
  · rintro rfl
    cases h
  · rintro rfl
    cases h
  · rintro (rfl | rfl | hdigit)
    · cases h
    · cases h
    · have hcode := toNat_of_isDigit hdigit
      rcases Bool.or_eq_true_iff.mp h with hletter | hunderscore
      · have hletter := toNat_of_isAlpha hletter
        omega
      · obtain rfl := eq_of_beq hunderscore
        cases hdigit

theorem isIdentifierChar_of_isDigit {c : Char} (h : c.isDigit = true) :
    isIdentifierChar c = true := by
  simp only [isIdentifierChar, Char.isAlphanum, h, Bool.or_true, Bool.true_or]

theorem ends_digits {rest : List Char} (hrest : Ends rest) :
    ∀ c ∈ rest.head?, c.isDigit = false := by
  intro c hc
  cases hdigit : c.isDigit with
  | false => rfl
  | true => exact (isIdentifierChar_of_isDigit hdigit).symm.trans (hrest c hc)

theorem not_isBlank_of_isIdentifierChar {c : Char} (h : isIdentifierChar c = true) :
    Text.isBlank c = false := by
  rcases Bool.or_eq_true_iff.mp h with halphanum | hunderscore
  · have hcodes : 48 ≤ c.toNat ∧ c.toNat ≤ 122 := by
      rcases Bool.or_eq_true_iff.mp halphanum with hletter | hdigit
      · have hletter := toNat_of_isAlpha hletter
        omega
      · have hdigit := toNat_of_isDigit hdigit
        omega
    simp [Text.isBlank, Text.isBlankCode]
    omega
  · obtain rfl := eq_of_beq hunderscore
    decide

theorem ends_gap {gap rest : List Char} (hgap : IsGap gap) (hrest : Ends rest) :
    Ends (gap ++ rest) := by
  cases gap with
  | nil => exact hrest
  | cons c gap =>
      intro d hd
      obtain rfl : c = d := by simpa using hd
      cases hname : isIdentifierChar c with
      | false => rfl
      | true =>
          have hblank := hgap c List.mem_cons_self
          rw [not_isBlank_of_isIdentifierChar hname] at hblank
          cases hblank

/-- An identifier, with its first character apart. -/
theorem exists_cons_of_isIdentifier {s : List Char} (h : isIdentifier s = true) :
    ∃ c rest, s = c :: rest ∧ isIdentifierStart c = true ∧
      ∀ d ∈ s, isIdentifierChar d = true := by
  cases s with
  | nil => cases h
  | cons c rest =>
      obtain ⟨hstart, hrest⟩ := Bool.and_eq_true_iff.mp h
      refine ⟨c, rest, rfl, hstart, ?_⟩
      exact List.forall_mem_cons.mpr
        ⟨isIdentifierChar_of_isIdentifierStart hstart, List.all_eq_true.mp hrest⟩

/-- A run of characters that satisfy `p` is split from what does not go on with it. -/
theorem span_run {p : Char → Bool} {s rest : List Char} (hs : ∀ c ∈ s, p c = true)
    (hrest : ∀ c ∈ rest.head?, p c = false) :
    (s ++ rest).takeWhile p = s ∧ (s ++ rest).dropWhile p = rest := by
  rw [List.takeWhile_append_of_pos hs, List.dropWhile_append_of_pos hs]
  cases rest with
  | nil => simp
  | cons c rest =>
      have hc : p c = false := hrest c rfl
      simp [hc]

theorem isIdentifier_name (op : Operator) : isIdentifier op.name.toList = true := by
  have hall : ∀ op ∈ Operator.all, isIdentifier op.name.toList = true := by decide
  exact hall op op.mem_all

theorem readNumber_negative {digits rest : List Char} {n : Int}
    (hdigits : ∀ c ∈ digits, c.isDigit = true) (hrest : Ends rest)
    (hread : Text.readInt64 ('-' :: digits) = some n) :
    readNumber ('-' :: digits ++ rest) = .ok (.number (Int64.ofInt n), rest) := by
  obtain ⟨htake, hdrop⟩ := span_run hdigits (ends_digits hrest)
  simp only [readNumber, List.cons_append, List.nil_append, htake, hdrop, hread]

theorem readNumber_unsigned {first : Char} {digits rest : List Char} {n : Int}
    (hdigits : ∀ c ∈ first :: digits, c.isDigit = true) (hrest : Ends rest)
    (hread : Text.readInt64 (first :: digits) = some n) :
    readNumber (first :: digits ++ rest) = .ok (.number (Int64.ofInt n), rest) := by
  have hfirst := hdigits first List.mem_cons_self
  obtain ⟨htake, hdrop⟩ := span_run hdigits (ends_digits hrest)
  rw [List.cons_append] at htake hdrop ⊢
  unfold readNumber
  split
  rename_i sign tail hsplit
  obtain ⟨rfl, rfl⟩ : sign = [] ∧ tail = first :: (digits ++ rest) := by
    split at hsplit
    · rename_i hsign
      rw [(List.cons.inj hsign).1] at hfirst
      cases hfirst
    · rename_i hsign
      rw [(List.cons.inj hsign).1] at hfirst
      cases hfirst
    · cases hsplit
      exact ⟨rfl, rfl⟩
  simp only [List.nil_append, htake, hdrop, hread]

theorem readNumber_decimal (n : Int64) {rest : List Char} (hrest : Ends rest) :
    readNumber (Text.decimal n.toInt ++ rest) = .ok (.number n, rest) := by
  have hdigits : ∀ c ∈ Nat.toDigits 10 n.toInt.natAbs, c.isDigit = true :=
    fun c => Text.isDigit_of_mem_toDigits
  have hread := Text.readInt64_decimal n
  unfold Text.decimal at hread ⊢
  by_cases hneg : n.toInt < 0
  · rw [if_pos hneg] at hread ⊢
    rw [readNumber_negative hdigits hrest hread, n.ofInt_toInt]
  · rw [if_neg hneg] at hread ⊢
    obtain ⟨first, tail, hcons, -⟩ := Text.exists_toDigits_eq_cons n.toInt.natAbs
    rw [hcons] at hread hdigits ⊢
    rw [readNumber_unsigned hdigits hrest hread, n.ofInt_toInt]

theorem readReference_written (whole : String) {id rest : List Char}
    (hid : isIdentifier id = true) (hrest : Ends rest) :
    readReference whole (id ++ rest) = .ok (.reference (String.ofList id), rest) := by
  obtain ⟨c, tail, -, -, hchars⟩ := exists_cons_of_isIdentifier hid
  obtain ⟨htake, hdrop⟩ := span_run hchars hrest
  simp only [readReference, htake, hdrop, hid, if_true]

/-- What is written starts with no blank, and is told apart from the end of a call. -/
theorem Written.exists_cons {tokenId : String → Option Nat} {e : Expr} {written : List Char}
    (h : Written tokenId e written) :
    ∃ c rest, written = c :: rest ∧ Text.isBlank c = false ∧ c ≠ ')' := by
  cases h with
  | number n =>
      obtain ⟨c, rest, hdecimal, rfl | hdigit⟩ := Text.exists_decimal_eq_cons n.toInt
      · exact ⟨'-', rest, hdecimal, by decide, by decide⟩
      · refine ⟨c, rest, hdecimal, ?_, ?_⟩
        · exact not_isBlank_of_isIdentifierChar (isIdentifierChar_of_isDigit hdigit)
        · rintro rfl
          cases hdigit
  | reference hid => exact ⟨'#', _, rfl, by decide, by decide⟩
  | text hlast hplain hreads => exact ⟨'\'', _, rfl, by decide, by decide⟩
  | @call op args gap written harity hgap hargs =>
      obtain ⟨c, rest, hname, hstart, -⟩ := exists_cons_of_isIdentifier (isIdentifier_name op)
      refine ⟨c, rest ++ gap ++ '(' :: written, by rw [hname]; rfl, ?_, ?_⟩
      · exact not_isBlank_of_isIdentifierChar (isIdentifierChar_of_isIdentifierStart hstart)
      · rintro rfl
        cases hstart

theorem WrittenArgs.exists_trimStart {tokenId : String → Option Nat} {args : List Expr}
    {written : List Char} (h : WrittenArgs tokenId args written) (rest : List Char) :
    ∃ c others, Text.trimStart (written ++ rest) = c :: others ∧ c ≠ ')' := by
  have hfirst {arg : Expr} {before first : List Char} (hbefore : IsGap before)
      (harg : Written tokenId arg first) (others : List Char) :
      ∃ c others', Text.trimStart (before ++ (first ++ others)) = c :: others' ∧ c ≠ ')' := by
    obtain ⟨c, tail, rfl, hblank, hopen⟩ := harg.exists_cons
    exact ⟨c, tail ++ others, by rw [trimStart_gap hbefore]; exact trimStart_cons hblank _, hopen⟩
  cases h with
  | last hbefore harg hafter => simpa only [List.append_assoc] using hfirst hbefore harg _
  | more hbefore harg hafter hargs => simpa only [List.append_assoc] using hfirst hbefore harg _

/-! Reading what is written, with anything behind it. -/

section Reading

variable {m : Type → Type} [Monad m] {lookups : Lookups m} {whole : String}

theorem readExpr_trimStart (bound : Nat) (inCall : Bool) (s : List Char) :
    readExpr lookups whole bound inCall (Text.trimStart s) =
      readExpr lookups whole bound inCall s := by
  cases bound with
  | zero => simp only [readExpr]
  | succ bound => rw [readExpr, readExpr, trimStart_trimStart]

theorem readArgs_trimStart (bound : Nat) (s : List Char) :
    readArgs lookups whole bound (Text.trimStart s) = readArgs lookups whole bound s := by
  cases bound with
  | zero => simp only [readArgs]
  | succ bound => rw [readArgs, readArgs, readExpr_trimStart]

theorem readExpr_gap {gap : List Char} (hgap : IsGap gap) (bound : Nat) (inCall : Bool)
    (s : List Char) :
    readExpr lookups whole bound inCall (gap ++ s) = readExpr lookups whole bound inCall s := by
  rw [← readExpr_trimStart, trimStart_gap hgap, readExpr_trimStart]

theorem readExpr_number {n : Int64} {rest : List Char} (hrest : Ends rest) (bound : Nat)
    (inCall : Bool) :
    readExpr lookups whole (bound + 1) inCall (Text.decimal n.toInt ++ rest) =
      pure (.number n, rest) := by
  have hread := readNumber_decimal n hrest
  obtain ⟨c, tail, hdecimal, hc⟩ := Text.exists_decimal_eq_cons n.toInt
  rw [hdecimal, List.cons_append] at hread ⊢
  have hblank : Text.isBlank c = false := by
    rcases hc with rfl | hdigit
    · decide
    · exact not_isBlank_of_isIdentifierChar (isIdentifierChar_of_isDigit hdigit)
  have hother : c ≠ '\'' ∧ c ≠ '{' ∧ c ≠ '#' := by
    rcases hc with rfl | hdigit
    · decide
    · refine ⟨?_, ?_, ?_⟩ <;> (rintro rfl; cases hdigit)
  obtain ⟨hquote, hbrace, hsharp⟩ := hother
  have hnumber : c = '-' ∨ c = '+' ∨ c.isDigit = true := hc.imp_right .inr
  rw [readExpr, trimStart_cons hblank]
  simp only [hquote, hbrace, hsharp, hnumber, if_false, if_true, hread]
  rfl

theorem readExpr_reference {id rest : List Char} (hid : isIdentifier id = true)
    (hrest : Ends rest) (bound : Nat) (inCall : Bool) :
    readExpr lookups whole (bound + 1) inCall ('#' :: id ++ rest) =
      pure (.reference (String.ofList id), rest) := by
  have hread := readReference_written whole hid hrest
  rw [List.cons_append, readExpr, trimStart_cons (by decide)]
  simp only [Char.reduceEq, if_false, if_true, hread]
  rfl

variable [LawfulMonad m]

theorem readTemplate_of_readTokens {s : List Char} {template : Template}
    (hplain : wholeReference? s = none)
    (hreads : Template.readTokens lookups.tokenId (String.ofList s) = .ok template) :
    readTemplate lookups s = pure (.text template) := by
  unfold readTemplate Template.parse
  rw [String.toList_ofList, hplain]
  simp only [hreads]
  have hlift : ExceptT.mk (OptionT.lift (pure (Except.ok template))) =
      (pure template : Reading m Template) := by
    simp only [OptionT.lift, bind_pure_comp, map_pure]
    rfl
  rw [hlift, pure_bind]

theorem readExpr_text {s : List Char} {template : Template} (hlast : s.getLast? ≠ some '\\')
    (hplain : wholeReference? s = none)
    (hreads : Template.readTokens lookups.tokenId (String.ofList s) = .ok template)
    (bound : Nat) (inCall : Bool) (rest : List Char) :
    readExpr lookups whole (bound + 1) inCall ('\'' :: escapeQuotes s ++ ['\''] ++ rest) =
      pure (.text template, rest) := by
  have hquoted := readQuoted_escapeQuotes hlast rest
  have htemplate : readTemplate lookups s = pure (.text template) :=
    readTemplate_of_readTokens hplain hreads
  rw [List.append_assoc, List.singleton_append, List.cons_append, readExpr,
    trimStart_cons (by decide)]
  simp only [if_true, hquoted, htemplate, pure_bind]

/-- A call is read if its arguments are, one level deeper. -/
theorem readExpr_call {op : Operator} {args : List Expr} {gap written rest : List Char}
    (harity : op.arity.accepts args.length = true) (hgap : IsGap gap)
    (hargs : WrittenArgs lookups.tokenId args written) {bound : Nat}
    (hread : readArgs lookups whole bound (written ++ rest) = pure (args, rest))
    (inCall : Bool) :
    readExpr lookups whole (bound + 1) inCall (op.name.toList ++ gap ++ '(' :: written ++ rest) =
      pure (.call op args, rest) := by
  obtain ⟨c, tail, hname, hstart, hchars⟩ := exists_cons_of_isIdentifier (isIdentifier_name op)
  have hends : Ends (gap ++ '(' :: (written ++ rest)) := by
    apply ends_gap hgap
    intro d hd
    cases hd
    rfl
  obtain ⟨htake, hdrop⟩ := span_run hchars hends
  have hparen : Text.trimStart (gap ++ '(' :: (written ++ rest)) = '(' :: (written ++ rest) := by
    rw [trimStart_gap hgap, trimStart_cons (by decide)]
  have hop : Operator.ofName? (String.ofList op.name.toList) = some op := by
    rw [String.ofList_toList, Operator.ofName?_name]
  have hchar := isIdentifierChar_of_isIdentifierStart hstart
  have hblank := not_isBlank_of_isIdentifierChar hchar
  obtain ⟨hquote, hbrace, hsharp, hnumber⟩ := other_of_isIdentifierStart hstart
  have hshape : op.name.toList ++ gap ++ '(' :: written ++ rest =
      op.name.toList ++ (gap ++ '(' :: (written ++ rest)) := by simp
  rw [hshape]
  rw [hname] at htake hdrop hop ⊢
  rw [List.cons_append] at htake hdrop ⊢
  rw [readExpr, trimStart_cons hblank]
  simp only [hquote, hbrace, hsharp, hnumber, hstart, if_false, if_true, htake, hdrop, hparen, hop]
  split
  · rename_i after hclosed
    obtain ⟨d, others, hd, hopen⟩ := hargs.exists_trimStart rest
    rw [hd] at hclosed
    exact absurd (List.cons.inj hclosed).1 hopen
  · have hcall : (liftM (checkedCall op args) : Reading m Expr) = pure (.call op args) := by
      rw [checkedCall, if_pos harity]
      rfl
    simp only [readArgs_trimStart, hread, pure_bind, hcall]

theorem readArgs_last {arg : Expr} {before written after rest : List Char} {bound : Nat}
    (hbefore : IsGap before) (hafter : IsGap after)
    (hread : readExpr lookups whole bound true (written ++ (after ++ ')' :: rest)) =
      pure (arg, after ++ ')' :: rest)) :
    readArgs lookups whole (bound + 1) (before ++ written ++ after ++ [')'] ++ rest) =
      pure ([arg], rest) := by
  have hclosed : Text.trimStart (after ++ ')' :: rest) = ')' :: rest := by
    rw [trimStart_gap hafter, trimStart_cons (by decide)]
  simp only [List.append_assoc, List.singleton_append]
  rw [readArgs, readExpr_gap hbefore, hread, pure_bind]
  simp only [hclosed]

theorem readArgs_more {arg : Expr} {args : List Expr}
    {before written after others rest : List Char} {bound : Nat}
    (hbefore : IsGap before) (hafter : IsGap after)
    (hread : readExpr lookups whole bound true (written ++ (after ++ ',' :: (others ++ rest))) =
      pure (arg, after ++ ',' :: (others ++ rest)))
    (hothers : readArgs lookups whole bound (others ++ rest) = pure (args, rest)) :
    readArgs lookups whole (bound + 1) (before ++ written ++ after ++ ',' :: others ++ rest) =
      pure (arg :: args, rest) := by
  have hcomma : Text.trimStart (after ++ ',' :: (others ++ rest)) = ',' :: (others ++ rest) := by
    rw [trimStart_gap hafter, trimStart_cons (by decide)]
  simp only [List.append_assoc, List.cons_append]
  rw [readArgs, readExpr_gap hbefore, hread, pure_bind]
  simp only [hcomma, hothers, pure_bind]

theorem ends_mark {c : Char} (hc : isIdentifierChar c = false) (rest : List Char) :
    Ends (c :: rest) := by
  intro d hd
  cases hd
  exact hc

mutual

/-- What an expression is written as is read as the expression, up to its end. -/
theorem Written.read : {e : Expr} → {written : List Char} → Written lookups.tokenId e written →
    ∀ bound, written.length ≤ bound → ∀ (inCall : Bool) (rest : List Char), Ends rest →
      readExpr lookups whole bound inCall (written ++ rest) = pure (e, rest)
  | _, _, h, 0, hbound, _, _, _ => by
      obtain ⟨c, rest, rfl, -⟩ := h.exists_cons
      cases hbound
  | _, _, .number n, bound + 1, _, inCall, _, hrest => readExpr_number hrest bound inCall
  | _, _, .reference hid, bound + 1, _, inCall, _, hrest =>
      readExpr_reference hid hrest bound inCall
  | _, _, .text hlast hplain hreads, bound + 1, _, inCall, rest, _ =>
      readExpr_text hlast hplain hreads bound inCall rest
  | _, _, .call harity hgap hargs, bound + 1, hbound, inCall, rest, _ => by
      simp only [List.length_append, List.length_cons] at hbound
      exact readExpr_call harity hgap hargs (hargs.read bound (by omega) rest) inCall

theorem WrittenArgs.read : {args : List Expr} → {written : List Char} →
    WrittenArgs lookups.tokenId args written → ∀ bound, written.length ≤ bound →
      ∀ rest : List Char, readArgs lookups whole bound (written ++ rest) = pure (args, rest)
  | _, _, h, 0, hbound, _ => by
      have hempty := List.length_eq_zero_iff.mp (Nat.le_zero.mp hbound)
      cases h with
      | last hbefore harg hafter => simp at hempty
      | more hbefore harg hafter hargs => simp at hempty
  | _, _, .last hbefore harg hafter, bound + 1, hbound, rest => by
      simp only [List.length_append, List.length_cons] at hbound
      apply readArgs_last hbefore hafter
      exact harg.read bound (by omega) true _ (ends_gap hafter (ends_mark (by decide) rest))
  | _, _, .more hbefore harg hafter hargs, bound + 1, hbound, rest => by
      simp only [List.length_append, List.length_cons] at hbound
      apply readArgs_more hbefore hafter
      · exact harg.read bound (by omega) true _ (ends_gap hafter (ends_mark (by decide) _))
      · exact hargs.read bound (by omega) rest

end

end Reading

theorem Written.parse {m : Type → Type} [Monad m] [LawfulMonad m] {lookups : Lookups m} {e : Expr}
    {before written after : List Char} (hwritten : Written lookups.tokenId e written)
    (hbefore : IsGap before) (hafter : IsGap after) :
    Expr.parse lookups (String.ofList (before ++ written ++ after)) = pure (.ok e) := by
  obtain ⟨c, tail, hcons, hblank, -⟩ := hwritten.exists_cons
  have htrim : Text.trimStart (before ++ written ++ after) = written ++ after := by
    rw [List.append_assoc, trimStart_gap hbefore, hcons]
    exact trimStart_cons hblank _
  have hend : Text.trimStart after = [] := by
    rw [← List.append_nil after, trimStart_gap hafter]
    rfl
  have hends : Ends after := by
    rw [← List.append_nil after]
    exact ends_gap hafter (by simp [Ends])
  have hlength : written.length ≤ (written ++ after).length + 1 := by
    simp only [List.length_append]
    omega
  have hread : readExpr lookups (String.ofList (before ++ written ++ after))
      ((written ++ after).length + 1) false (written ++ after) = pure (e, after) :=
    hwritten.read _ hlength false after hends
  unfold Expr.parse
  simp only [String.toList_ofList, htrim, hread]
  rw [hcons]
  change (pure (some (Except.ok (e, after))) : m _) >>= _ = _
  rw [pure_bind]
  simp only [hend]

/-- An expression that is written in any of the ways there are, with any blanks before and behind
it, is read as itself. What a quoted text says never ends in a backslash. -/
theorem parse_of_written {m : Type → Type} [Monad m] [LawfulMonad m] (lookups : Lookups m)
    {e : Expr} {before written after : List Char} (hbefore : IsGap before)
    (hwritten : Written lookups.tokenId e written) (hafter : IsGap after) :
    Expr.parse lookups (String.ofList (before ++ written ++ after)) = pure (.ok e) ∧
      ∀ s quoted rest : List Char, readQuoted s = some (quoted, rest) →
        quoted.getLast? ≠ some '\\' :=
  ⟨hwritten.parse hbefore hafter, fun _ _ _ => getLast?_of_readQuoted⟩

/-- The least number, a text with quotes, a backslash and a token in it, and blanks all over. -/
theorem parse_of_written_comparison :
    let lookups : Lookups Id :=
      { emptyWorld with tokenId := fun name => if name = "a" then some 7 else none }
    let text : Template := ⟨[.literal "it's \\'", .token { name := "a", id := 7 }]⟩
    let e : Expr :=
      .call .add [.number Int64.minValue, .call (.compare .equal) [.text text, .reference "b_1"]]
    let written := "add\t( -9223372036854775808\n,equal('it\\'s \\\\'\x7ba\x7d', #b_1 ) )".toList
    IsGap [' '] ∧ Written lookups.tokenId e written ∧ IsGap [] ∧
      Expr.parse lookups (String.ofList ([' '] ++ written ++ [])) = pure (.ok e) := by
  intro lookups text e written
  have hnone : IsGap [] := by decide
  have hspace : IsGap [' '] := by decide
  have htext : Written lookups.tokenId (.text text) "'it\\'s \\\\'\x7ba\x7d'".toList :=
    @Written.text _ "it's \\'\x7ba\x7d".toList text (by decide) (by decide) rfl
  have hequal : Written lookups.tokenId (.call (.compare .equal) [.text text, .reference "b_1"])
      "equal('it\\'s \\\\'\x7ba\x7d', #b_1 )".toList :=
    @Written.call _ (.compare .equal) _ [] _ (by decide) hnone
      (@WrittenArgs.more _ _ _ [] _ [] _ hnone htext hnone
        (@WrittenArgs.last _ _ [' '] _ [' '] hspace (@Written.reference _ "b_1".toList (by decide))
          hspace))
  have hwritten : Written lookups.tokenId e written :=
    @Written.call _ .add _ ['\t'] _ (by decide) (by decide)
      (@WrittenArgs.more _ _ _ [' '] _ ['\n'] _ hspace (.number Int64.minValue) (by decide)
        (@WrittenArgs.last _ _ [] _ [' '] hnone hequal hspace))
  exact ⟨hspace, hwritten, hnone, (parse_of_written lookups hspace hwritten hnone).1⟩

end PanelSkin.Expr
