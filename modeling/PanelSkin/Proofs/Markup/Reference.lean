import PanelSkin.Markup.Entity
import PanelSkin.Proofs.Markup.Content
import PanelSkin.Proofs.Text.Numeral

/-!
What text says with its character references replaced. The rule is a relation: from left to right,
an ampersand and the characters up to the next semicolon are replaced if they are a reference, and
otherwise the ampersand is kept and reading goes on behind it. Decoding follows the rule, with
references in which a plus sign may stand before the digits. So it follows the rule for references
without a sign on exactly those texts that have no others.
-/

namespace PanelSkin.Markup

/-- The character of a number below 2^32. -/
def IsCharOf (n : Nat) (c : Char) : Prop :=
  c.toNat = n ∨ (0xD800 ≤ n ∧ n ≤ 0xDFFF ∨ 0x10FFFF < n) ∧ c = '\uFFFD'

/-- What may stand between an ampersand and a semicolon, and the character it refers to. A plus
sign may stand before digits if `plus` says so. -/
inductive RefersTo (plus : Bool) : List Char → Char → Prop where
  | lt : RefersTo plus ['l', 't'] '<'
  | gt : RefersTo plus ['g', 't'] '>'
  | amp : RefersTo plus ['a', 'm', 'p'] '&'
  | quot : RefersTo plus ['q', 'u', 'o', 't'] '"'
  | apos : RefersTo plus ['a', 'p', 'o', 's'] '\''
  | decimal {sign digits : List Char} {n : Nat} {c : Char}
      (hsign : sign = [] ∨ plus = true ∧ sign = ['+']) (hdigits : Text.Writes 10 digits n)
      (hrange : n < 2 ^ 32) (hchar : IsCharOf n c) : RefersTo plus ('#' :: (sign ++ digits)) c
  | hexadecimal {x : Char} {sign digits : List Char} {n : Nat} {c : Char}
      (hx : x = 'x' ∨ x = 'X') (hsign : sign = [] ∨ plus = true ∧ sign = ['+'])
      (hdigits : Text.Writes 16 digits n) (hrange : n < 2 ^ 32) (hchar : IsCharOf n c) :
      RefersTo plus ('#' :: x :: (sign ++ digits)) c

/-- A text, and what it says with references replaced from left to right. What a reference is
replaced by is not read again. -/
inductive Replaced (refers : List Char → Char → Prop) : List Char → List Char → Prop where
  | nil : Replaced refers [] []
  | other {c : Char} {rest said : List Char} (hc : c ≠ '&') (hrest : Replaced refers rest said) :
      Replaced refers (c :: rest) (c :: said)
  | reference {name : List Char} {c : Char} {rest said : List Char} (hname : ';' ∉ name)
      (hrefers : refers name c) (hrest : Replaced refers rest said) :
      Replaced refers ('&' :: (name ++ ';' :: rest)) (c :: said)
  /-- The characters up to the next semicolon are no reference, or there is none. -/
  | kept {rest said : List Char}
      (hnone : ∀ name after c, rest = name ++ ';' :: after → ';' ∉ name → ¬ refers name c)
      (hrest : Replaced refers rest said) : Replaced refers ('&' :: rest) ('&' :: said)

theorem isCharOf_iff {n : Nat} {c : Char} : IsCharOf n c ↔ charOfCode n = c := by
  unfold charOfCode IsCharOf
  split
  · rename_i hvalid
    have hcode : (Char.ofNatAux n hvalid).toNat = n := rfl
    constructor
    · rintro (hc | ⟨hout, -⟩)
      · exact Char.toNat_inj.mp (hcode.trans hc.symm)
      · rcases hvalid with hlow | hhigh <;> omega
    · rintro rfl
      exact Or.inl hcode
  · rename_i hinvalid
    have hout : 0xD800 ≤ n ∧ n ≤ 0xDFFF ∨ 0x10FFFF < n := by
      unfold Nat.isValidChar at hinvalid
      omega
    constructor
    · rintro (rfl | ⟨-, rfl⟩)
      · exact absurd c.valid hinvalid
      · rfl
    · rintro rfl
      exact Or.inr ⟨hout, rfl⟩

/-- A code is a decimal number, or a hexadecimal one behind an x. -/
theorem readCode_eq_some_iff {number : List Char} {n : Nat} :
    readCode number = some n ↔ Text.readUnsigned 10 (2 ^ 32) number = some n ∨
      ∃ x hex, (x = 'x' ∨ x = 'X') ∧ number = x :: hex ∧
        Text.readUnsigned 16 (2 ^ 32) hex = some n := by
  unfold readCode
  split
  · rename_i hex
    have hdecimal : Text.readUnsigned 10 (2 ^ 32) ('x' :: hex) = none := rfl
    rw [hdecimal]
    simp
  · rename_i hex
    have hdecimal : Text.readUnsigned 10 (2 ^ 32) ('X' :: hex) = none := rfl
    rw [hdecimal]
    simp
  · rename_i hlower hupper
    constructor
    · exact Or.inl
    · rintro (hdecimal | ⟨x, hex, rfl | rfl, rfl, -⟩)
      · exact hdecimal
      · exact absurd rfl (hlower hex)
      · exact absurd rfl (hupper hex)

/-- What decoding takes for a reference is one in which a plus sign may stand before digits. -/
theorem refersTo_iff {name : List Char} {c : Char} :
    RefersTo true name c ↔ referenceChar name = some c := by
  constructor
  · intro h
    cases h with
    | lt | gt | amp | quot | apos => rfl
    | @decimal sign digits n _ hsign hdigits hrange hchar =>
        have hcode : readCode (sign ++ digits) = some n :=
          readCode_eq_some_iff.mpr (Or.inl ((Text.readUnsigned_eq_some_iff (by decide)).mpr
            ⟨sign, digits, rfl, by simpa using hsign, hdigits, hrange⟩))
        rw [referenceChar, hcode, Option.map_some, isCharOf_iff.mp hchar]
    | @hexadecimal x sign digits n _ hx hsign hdigits hrange hchar =>
        have hcode : readCode (x :: (sign ++ digits)) = some n :=
          readCode_eq_some_iff.mpr (Or.inr ⟨x, _, hx, rfl,
            (Text.readUnsigned_eq_some_iff (by decide)).mpr
              ⟨sign, digits, rfl, by simpa using hsign, hdigits, hrange⟩⟩)
        rw [referenceChar, hcode, Option.map_some, isCharOf_iff.mp hchar]
  · intro h
    unfold referenceChar at h
    split at h
    case h_6 number =>
      obtain ⟨n, hcode, hchar⟩ := Option.map_eq_some_iff.mp h
      rw [← isCharOf_iff] at hchar
      rcases readCode_eq_some_iff.mp hcode with hdecimal | ⟨x, hex, hx, rfl, hhex⟩
      · obtain ⟨sign, digits, rfl, hsign, hdigits, hrange⟩ :=
          (Text.readUnsigned_eq_some_iff (by decide)).mp hdecimal
        exact .decimal (by simpa using hsign) hdigits hrange hchar
      · obtain ⟨sign, digits, rfl, hsign, hdigits, hrange⟩ :=
          (Text.readUnsigned_eq_some_iff (by decide)).mp hhex
        exact .hexadecimal hx (by simpa using hsign) hdigits hrange hchar
    case h_7 => cases h
    all_goals
      cases h
      constructor

/-! The characters up to the next semicolon. -/

private theorem ne_semicolon {name : List Char} (hname : ';' ∉ name) :
    ∀ c ∈ name, (c != ';') = true := by
  intro c hc
  simpa using fun hsame : c = ';' => hname (hsame ▸ hc)

/-- A text splits at its first semicolon in one way. -/
theorem split_unique {name other after rest : List Char} (hname : ';' ∉ name) (hother : ';' ∉ other)
    (h : name ++ ';' :: after = other ++ ';' :: rest) : name = other ∧ after = rest := by
  have htake := congrArg (List.takeWhile (· != ';')) h
  rw [List.takeWhile_append_of_pos (ne_semicolon hname),
    List.takeWhile_append_of_pos (ne_semicolon hother), List.takeWhile_cons_of_neg (by decide),
    List.takeWhile_cons_of_neg (by decide), List.append_nil, List.append_nil] at htake
  subst htake
  exact ⟨rfl, (List.cons.inj (List.append_cancel_left h)).2⟩

theorem reference?_of_split {name : List Char} (hname : ';' ∉ name) (rest : List Char) :
    reference? (name ++ ';' :: rest) = (referenceChar name).map (·, name.length + 1) := by
  unfold reference?
  rw [List.span_eq_takeWhile_dropWhile, List.takeWhile_append_of_pos (ne_semicolon hname),
    List.dropWhile_append_of_pos (ne_semicolon hname)]
  simp

theorem reference?_of_notMem {text : List Char} (h : ';' ∉ text) : reference? text = none := by
  unfold reference?
  rw [List.span_eq_takeWhile_dropWhile, List.dropWhile_eq_nil_iff.mpr (ne_semicolon h)]
  rfl

/-- Where decoding finds no reference there is none. -/
theorem reference?_eq_none {rest : List Char}
    (hnone : ∀ name after c, rest = name ++ ';' :: after → ';' ∉ name → ¬ RefersTo true name c) :
    reference? rest = none := by
  by_cases hmem : ';' ∈ rest
  · obtain ⟨name, after, rfl, hname⟩ := List.eq_append_cons_of_mem hmem
    rw [reference?_of_split hname, Option.map_eq_none_iff, Option.eq_none_iff_forall_ne_some]
    intro c hc
    exact hnone name after c rfl hname (refersTo_iff.mpr hc)
  · exact reference?_of_notMem hmem

/-! Decoding, by what stands at the start of a text. -/

private theorem decodeEntitiesAfter_append (skipped rest : List Char) :
    decodeEntitiesAfter skipped.length (skipped ++ rest) = decodeEntities rest := by
  induction skipped with
  | nil => rfl
  | cons c skipped ih => exact ih

theorem decodeEntities_other {c : Char} (hc : c ≠ '&') (rest : List Char) :
    decodeEntities (c :: rest) = c :: decodeEntities rest := if_neg hc

theorem decodeEntities_reference {name : List Char} {c : Char} (hname : ';' ∉ name)
    (h : referenceChar name = some c) (rest : List Char) :
    decodeEntities ('&' :: (name ++ ';' :: rest)) = c :: decodeEntities rest := by
  have hskip := decodeEntitiesAfter_append (name ++ [';']) rest
  rw [List.length_append, List.length_singleton, List.append_assoc, List.singleton_append] at hskip
  simp only [decodeEntities, decodeEntitiesAfter, if_true, reference?_of_split hname, h,
    Option.map_some, List.cons.injEq, true_and]
  exact hskip

theorem decodeEntities_kept {rest : List Char} (h : reference? rest = none) :
    decodeEntities ('&' :: rest) = '&' :: decodeEntities rest := by
  simp only [decodeEntities, decodeEntitiesAfter, if_true, h]

theorem Replaced.decodeEntities_eq {text said : List Char}
    (h : Replaced (RefersTo true) text said) : decodeEntities text = said := by
  induction h with
  | nil => rfl
  | other hc _ ih => rw [decodeEntities_other hc, ih]
  | reference hname hrefers _ ih =>
      rw [decodeEntities_reference hname (refersTo_iff.mp hrefers), ih]
  | kept hnone _ ih => rw [decodeEntities_kept (reference?_eq_none hnone), ih]

/-! The rule, for any references. -/

variable {refers : List Char → Char → Prop}

theorem exists_replaced (refers : List Char → Char → Prop) (text : List Char) :
    ∃ said, Replaced refers text said := by
  induction hlength : text.length using Nat.strong_induction_on generalizing text with
  | _ n ih =>
      cases text with
      | nil => exact ⟨[], .nil⟩
      | cons c rest =>
          have hshorter (s : List Char) (hs : s.length ≤ rest.length) :
              ∃ said, Replaced refers s said := by
            rw [List.length_cons] at hlength
            exact ih s.length (by omega) s rfl
          by_cases hc : c = '&'
          · subst hc
            by_cases hsome : ∃ name after d,
                rest = name ++ ';' :: after ∧ ';' ∉ name ∧ refers name d
            · obtain ⟨name, after, d, rfl, hname, hrefers⟩ := hsome
              obtain ⟨said, hsaid⟩ := hshorter after (by simp; omega)
              exact ⟨d :: said, .reference hname hrefers hsaid⟩
            · obtain ⟨said, hsaid⟩ := hshorter rest (Nat.le_refl _)
              refine ⟨'&' :: said, .kept ?_ hsaid⟩
              intro name after d hsplit hname hrefers
              exact hsome ⟨name, after, d, hsplit, hname, hrefers⟩
          · obtain ⟨said, hsaid⟩ := hshorter rest (Nat.le_refl _)
            exact ⟨c :: said, .other hc hsaid⟩

theorem Replaced.of_other {c : Char} (hc : c ≠ '&') {rest said : List Char}
    (h : Replaced refers (c :: rest) said) :
    ∃ later, said = c :: later ∧ Replaced refers rest later := by
  cases h with
  | other _ hrest => exact ⟨_, rfl, hrest⟩
  | reference => exact absurd rfl hc
  | kept => exact absurd rfl hc

theorem Replaced.of_amp {rest said : List Char} (h : Replaced refers ('&' :: rest) said) :
    (∃ name c after later, rest = name ++ ';' :: after ∧ ';' ∉ name ∧ refers name c ∧
      said = c :: later ∧ Replaced refers after later) ∨
    ∃ later, (∀ name after c, rest = name ++ ';' :: after → ';' ∉ name → ¬ refers name c) ∧
      said = '&' :: later ∧ Replaced refers rest later := by
  generalize htext : '&' :: rest = text at h
  cases h with
  | nil => cases htext
  | other hc _ => exact absurd (List.cons.inj htext).1.symm hc
  | @reference name c after later hname hrefers hrest =>
      exact Or.inl ⟨name, c, after, later, (List.cons.inj htext).2, hname, hrefers, rfl, hrest⟩
  | @kept _ later hnone hrest =>
      obtain rfl := (List.cons.inj htext).2
      exact Or.inr ⟨later, hnone, rfl, hrest⟩

theorem Replaced.unique (hrefers : ∀ name c d, refers name c → refers name d → c = d)
    {text said other : List Char} (h : Replaced refers text said)
    (hother : Replaced refers text other) : said = other := by
  induction h generalizing other with
  | nil =>
      cases hother
      rfl
  | other hc _ ih =>
      obtain ⟨later, rfl, hrest⟩ := hother.of_other hc
      rw [ih hrest]
  | reference hname hfirst _ ih =>
      rcases hother.of_amp with ⟨_, _, _, _, hsplit, hname', hsecond, rfl, hrest⟩ | ⟨_, hnone, -, -⟩
      · obtain ⟨rfl, rfl⟩ := split_unique hname hname' hsplit
        rw [hrefers _ _ _ hfirst hsecond, ih hrest]
      · exact absurd hfirst (hnone _ _ _ rfl hname)
  | kept hnone _ ih =>
      rcases hother.of_amp with ⟨_, _, _, _, hsplit, hname, hfirst, -, -⟩ | ⟨_, -, rfl, hrest⟩
      · exact absurd hfirst (hnone _ _ _ hsplit hname)
      · rw [ih hrest]

/-- Text without ampersands is as it is, and what stands behind it is read by itself. -/
theorem Replaced.behind {front rest said : List Char} (hfront : '&' ∉ front)
    (h : Replaced refers (front ++ rest) said) :
    ∃ later, said = front ++ later ∧ Replaced refers rest later := by
  induction front generalizing said with
  | nil => exact ⟨said, rfl, h⟩
  | cons c front ih =>
      rw [List.mem_cons, not_or] at hfront
      obtain ⟨_, rfl, hrest⟩ := h.of_other (Ne.symm hfront.1)
      obtain ⟨later, rfl, hlater⟩ := ih hfront.2 hrest
      exact ⟨later, rfl, hlater⟩

/-! References with and without signs. -/

theorem RefersTo.signed {plus : Bool} {name : List Char} {c : Char} (h : RefersTo plus name c) :
    RefersTo true name c := by
  cases h with
  | lt => exact .lt
  | gt => exact .gt
  | amp => exact .amp
  | quot => exact .quot
  | apos => exact .apos
  | decimal hsign hdigits hrange hchar =>
      exact .decimal (hsign.imp_right fun h => ⟨rfl, h.2⟩) hdigits hrange hchar
  | hexadecimal hx hsign hdigits hrange hchar =>
      exact .hexadecimal hx (hsign.imp_right fun h => ⟨rfl, h.2⟩) hdigits hrange hchar

theorem RefersTo.unique {plus : Bool} {name : List Char} {c d : Char} (hc : RefersTo plus name c)
    (hd : RefersTo plus name d) : c = d :=
  Option.some.inj ((refersTo_iff.mp hc.signed).symm.trans (refersTo_iff.mp hd.signed))

/-- Letters, digits and number signs, and plus signs if `plus` says so. -/
def isReferenceChar (plus : Bool) (c : Char) : Bool :=
  c.isAlphanum || c == '#' || c == '+' && plus

theorem RefersTo.characters {plus : Bool} {name : List Char} {c : Char}
    (h : RefersTo plus name c) : ∀ d ∈ name, isReferenceChar plus d = true := by
  have hnumber {base n : Nat} (hbase : base ≤ 16) {sign digits : List Char}
      (hsign : sign = [] ∨ plus = true ∧ sign = ['+']) (hdigits : Text.Writes base digits n) :
      ∀ d ∈ sign ++ digits, isReferenceChar plus d = true := by
    intro d hd
    rcases List.mem_append.mp hd with hsigned | hdigit
    · rcases hsign with rfl | ⟨hplus, rfl⟩
      · cases hsigned
      · rw [List.mem_singleton.mp hsigned, hplus]
        rfl
    · rw [isReferenceChar, hdigits.isAlphanum hbase d hdigit]
      rfl
  cases h with
  | lt | gt | amp | quot | apos => exact List.all_eq_true.mp rfl
  | decimal hsign hdigits _ _ =>
      exact List.forall_mem_cons.mpr ⟨rfl, hnumber (by decide) hsign hdigits⟩
  | hexadecimal hx hsign hdigits _ _ =>
      refine List.forall_mem_cons.mpr ⟨rfl, List.forall_mem_cons.mpr ⟨?_, ?_⟩⟩
      · rcases hx with rfl | rfl <;> rfl
      · exact hnumber (by decide) hsign hdigits

theorem RefersTo.notMem {plus : Bool} {name : List Char} {c d : Char} (h : RefersTo plus name c)
    (hd : isReferenceChar plus d = false) : d ∉ name := by
  intro hmem
  rw [h.characters d hmem] at hd
  cases hd

/-- Wherever a reference stands in a text, it has no sign. -/
def Unsigned (text : List Char) : Prop :=
  ∀ before name after c, text = before ++ '&' :: (name ++ ';' :: after) →
    RefersTo true name c → RefersTo false name c

theorem Unsigned.behind (front : List Char) {rest : List Char} (h : Unsigned (front ++ rest)) :
    Unsigned rest := by
  intro before name after c hrest
  apply h (front ++ before) name after c
  rw [hrest, List.append_assoc]

theorem Unsigned.cons {c : Char} {rest : List Char} (h : Unsigned rest)
    (hstart : c = '&' → ∀ name after d, rest = name ++ ';' :: after → RefersTo true name d →
      RefersTo false name d) : Unsigned (c :: rest) := by
  intro before name after d htext
  cases before with
  | nil =>
      obtain ⟨hc, hrest⟩ := List.cons.inj htext
      exact hstart hc name after d hrest
  | cons b before => exact h before name after d (List.cons.inj htext).2

theorem Unsigned.append {front rest : List Char} (hfront : '&' ∉ front) (h : Unsigned rest) :
    Unsigned (front ++ rest) := by
  induction front with
  | nil => exact h
  | cons c front ih =>
      rw [List.mem_cons, not_or] at hfront
      exact (ih hfront.2).cons fun hc => absurd hc.symm hfront.1

/-- In a text without signs the two rules agree. -/
theorem Replaced.of_unsigned {text said : List Char} (h : Replaced (RefersTo false) text said)
    (hunsigned : Unsigned text) : Replaced (RefersTo true) text said := by
  induction h with
  | nil => exact .nil
  | @other c _ _ hc _ ih => exact .other hc (ih (Unsigned.behind [c] hunsigned))
  | @reference name c rest said hname hrefers _ ih =>
      refine .reference hname hrefers.signed (ih ?_)
      apply Unsigned.behind ('&' :: (name ++ [';']))
      simpa using hunsigned
  | @kept rest said hnone _ ih =>
      refine .kept ?_ (ih (Unsigned.behind ['&'] hunsigned))
      intro name after c hsplit hname hrefers
      exact hnone name after c hsplit hname (hunsigned [] name after c (hsplit ▸ rfl) hrefers)

/-- The text that the rule with signs gives is not longer than that of the rule without them, and
shorter if a reference has a sign: that is then left as it stands. -/
theorem Replaced.length_le {text said other : List Char} (h : Replaced (RefersTo true) text said)
    (hother : Replaced (RefersTo false) text other) :
    said.length ≤ other.length ∧ (said.length = other.length → Unsigned text) := by
  induction h generalizing other with
  | nil =>
      refine ⟨Nat.zero_le _, fun _ => ?_⟩
      intro before name after c hnil
      exact absurd hnil (by simp)
  | other hc _ ih =>
      obtain ⟨later, rfl, hrest⟩ := hother.of_other hc
      obtain ⟨hle, hunsigned⟩ := ih hrest
      rw [List.length_cons, List.length_cons]
      refine ⟨by omega, fun heq => (hunsigned (by omega)).cons fun hamp => absurd hamp hc⟩
  | @reference name c rest said hname hrefers _ ih =>
      have hplain : '&' ∉ name := hrefers.notMem rfl
      rcases hother.of_amp with
        ⟨_, d, _, later, hsplit, hname', hfirst, rfl, hrest⟩ | ⟨_, -, rfl, hkept⟩
      · obtain ⟨rfl, rfl⟩ := split_unique hname hname' hsplit
        obtain ⟨hle, hunsigned⟩ := ih hrest
        rw [List.length_cons, List.length_cons]
        refine ⟨by omega, fun heq => ?_⟩
        have hbehind : Unsigned (name ++ ';' :: rest) :=
          ((hunsigned (by omega)).cons (by rintro ⟨⟩)).append hplain
        apply hbehind.cons
        intro _ name' after d' hsplit' hrefers'
        obtain ⟨rfl, -⟩ := split_unique hname (hrefers'.notMem rfl) hsplit'
        rw [hrefers'.unique hfirst.signed]
        exact hfirst
      · -- a reference with a sign, which is longer than its character
        obtain ⟨_, rfl, hsemicolon⟩ := hkept.behind hplain
        obtain ⟨later, rfl, hrest⟩ := hsemicolon.of_other (by decide)
        have hle := (ih hrest).1
        simp only [List.length_cons, List.length_append]
        exact ⟨by omega, by omega⟩
  | kept hnone _ ih =>
      rcases hother.of_amp with ⟨_, _, _, _, hsplit, hname, hfirst, -, -⟩ | ⟨_, -, rfl, hrest⟩
      · exact absurd hfirst.signed (hnone _ _ _ hsplit hname)
      · obtain ⟨hle, hunsigned⟩ := ih hrest
        rw [List.length_cons, List.length_cons]
        refine ⟨by omega, fun heq => (hunsigned (by omega)).cons ?_⟩
        intro _ name after c hsplit hrefers
        exact absurd hrefers (hnone name after c hsplit (hrefers.notMem rfl))

/-- Text written with references for ampersands and opening brackets says the text, whether or not
references may have signs. -/
theorem replaced_escapeText (plus : Bool) (text : List Char) :
    Replaced (RefersTo plus) (escapeText text) text := by
  induction text with
  | nil => exact .nil
  | cons c text ih =>
      rw [escapeText, List.flatMap_cons, ← escapeText]
      by_cases hamp : c = '&'
      · subst hamp
        exact @Replaced.reference _ ['a', 'm', 'p'] _ _ _ (by decide) .amp ih
      · by_cases hlt : c = '<'
        · subst hlt
          exact @Replaced.reference _ ['l', 't'] _ _ _ (by decide) .lt ih
        · rw [if_neg hamp, if_neg hlt]
          exact .other hamp ih

theorem decodeEntities_escapeText (text : List Char) :
    decodeEntities (escapeText text) = text :=
  (replaced_escapeText true text).decodeEntities_eq

theorem replaced_iff (text said : List Char) :
    Replaced (RefersTo true) text said ↔ said = decodeEntities text := by
  constructor
  · intro h
    exact h.decodeEntities_eq.symm
  · rintro rfl
    obtain ⟨said, hsaid⟩ := exists_replaced (RefersTo true) text
    rw [hsaid.decodeEntities_eq]
    exact hsaid

/-- Decoding replaces references from left to right, without reading anything twice, and keeps
every ampersand that starts none. What it takes for a reference is one of the five names or a number
below 2^32, in front of whose digits there may be a plus sign. If numbers are to have no sign, then
there is one result for each text too, and decoding gives it for exactly the texts in which no
reference with a sign stands. Text that is written with references for its ampersands and opening
brackets comes back. -/
theorem decoding_replaces_references (text : List Char) :
    (∀ said, Replaced (RefersTo true) text said ↔ said = decodeEntities text) ∧
      (∃! said, Replaced (RefersTo false) text said) ∧
      (Replaced (RefersTo false) text (decodeEntities text) ↔ Unsigned text) ∧
      decodeEntities (escapeText text) = text := by
  refine ⟨replaced_iff text, ?_, ?_, decodeEntities_escapeText text⟩
  · obtain ⟨said, hsaid⟩ := exists_replaced (RefersTo false) text
    refine ⟨said, hsaid, fun other hother => ?_⟩
    exact hother.unique (fun _ _ _ hc hd => hc.unique hd) hsaid
  · have hdecoded : Replaced (RefersTo true) text (decodeEntities text) :=
      (replaced_iff text _).mpr rfl
    constructor
    · intro hplain
      exact (hdecoded.length_le hplain).2 rfl
    · intro hunsigned
      obtain ⟨said, hsaid⟩ := exists_replaced (RefersTo false) text
      rw [(hsaid.of_unsigned hunsigned).decodeEntities_eq]
      exact hsaid

/-- A code with a plus sign is decoded, though its number is not written with digits only. -/
theorem decoding_reads_sign :
    decodeEntities ['&', '#', '+', '6', '5', ';'] = ['A'] ∧
      Replaced (RefersTo false) ['&', '#', '+', '6', '5', ';'] ['&', '#', '+', '6', '5', ';'] := by
  refine ⟨rfl, .kept ?_ ?_⟩
  · intro name after c hsplit hname hrefers
    have hstart : ['#', '+', '6', '5'] ++ ';' :: [] = name ++ ';' :: after := hsplit
    obtain ⟨rfl, -⟩ := split_unique (by decide) hname hstart
    exact hrefers.notMem (d := '+') rfl (by decide)
  · exact .other (by decide) (.other (by decide) (.other (by decide) (.other (by decide)
      (.other (by decide) .nil))))

end PanelSkin.Markup
