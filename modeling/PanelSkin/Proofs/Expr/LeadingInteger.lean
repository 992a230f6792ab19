import PanelSkin.Expr.Value
import PanelSkin.Proofs.Text.Blank
import PanelSkin.Proofs.Text.Numeral

/-!
A text as a number. The digits are added up in words of 64 bits, which wrap at every step; as
reduction to words keeps sums and products, the result is the number that all digits write, reduced
once. The sign is taken after that, so the least word comes back from its own text though it is the
negative of no word.
-/

namespace PanelSkin.Value

/-- The sign in front of a number. -/
inductive Sign where
  | unsigned
  | plus
  | minus
  deriving DecidableEq, Repr

def Sign.text : Sign → List Char
  | .unsigned => []
  | .plus => ['+']
  | .minus => ['-']

def Sign.apply (sign : Sign) (n : Int) : Int :=
  match sign with
  | .unsigned | .plus => n
  | .minus => -n

/-- The parts of a text that is read as a number, each as long as it can be: blanks, a sign, digits
and a rest. Where there is neither sign nor digit the rest begins with nothing that could be taken
for a blank or a sign. -/
structure Reading where
  blanks : List Char
  sign : Sign
  digits : List Char
  rest : List Char
  blanks_blank : ∀ c ∈ blanks, Text.isBlank c = true
  digits_digit : ∀ c ∈ digits, c.isDigit = true
  rest_digit : ∀ c ∈ rest.head?, c.isDigit = false
  rest_bare : sign = .unsigned → digits = [] →
    ∀ c ∈ rest.head?, Text.isBlank c = false ∧ c ≠ '-' ∧ c ≠ '+'

namespace Reading

def text (r : Reading) : List Char := r.blanks ++ r.sign.text ++ r.digits ++ r.rest

/-- The number that is written, of any size. -/
def number (r : Reading) : Int := r.sign.apply (Nat.ofDigitChars 10 r.digits 0)

end Reading

theorem isDigit_iff {c : Char} : c.isDigit = true ↔ '0' ≤ c ∧ c ≤ '9' := by
  rw [Char.isDigit, Bool.and_eq_true, decide_eq_true_eq, decide_eq_true_eq]
  rfl

/-- The digits at the start of a text count as the number they write, reduced to a word. -/
theorem wrapDigits_append {digits rest : List Char} (hdigits : ∀ c ∈ digits, c.isDigit = true)
    (hrest : ∀ c ∈ rest.head?, c.isDigit = false) (n : Nat) :
    wrapDigits (Int64.ofNat n) (digits ++ rest) = Int64.ofNat (Nat.ofDigitChars 10 digits n) := by
  induction digits generalizing n with
  | nil =>
      cases rest with
      | nil => rfl
      | cons c rest =>
          have hc : ¬ ('0' ≤ c ∧ c ≤ '9') := by
            rw [← isDigit_iff, hrest c rfl]
            exact Bool.false_ne_true
          rw [List.nil_append, wrapDigits, if_neg hc, Nat.ofDigitChars_nil]
  | cons c digits ih =>
      obtain ⟨hc, hothers⟩ := List.forall_mem_cons.mp hdigits
      have hstep : Int64.ofNat n * 10 + Int64.ofNat (c.toNat - '0'.toNat) =
          Int64.ofNat (10 * n + (c.toNat - '0'.toNat)) := by
        rw [Int64.ofNat_add, Int64.ofNat_mul, Int64.mul_comm]
        rfl
      rw [List.cons_append, wrapDigits, if_pos (isDigit_iff.mp hc), hstep, ih hothers,
        Nat.ofDigitChars_cons]

theorem isBlank_of_isDigit {c : Char} (h : c.isDigit = true) : Text.isBlank c = false :=
  Text.isBlank_of_isAlphanum (Bool.or_eq_true_iff.mpr (Or.inr h))

/-- Without a sign the digits are counted from the start. -/
theorem leadingInteger_of_bare {s : List Char}
    (hbare : ∀ c ∈ s.head?, Text.isBlank c = false ∧ c ≠ '-' ∧ c ≠ '+') :
    leadingInteger s = wrapDigits 0 s := by
  cases s with
  | nil => rfl
  | cons c s =>
      obtain ⟨hblank, hminus, hplus⟩ := hbare c rfl
      unfold leadingInteger
      rw [Text.trimStart_cons hblank]
      split
      · rename_i hsign
        exact absurd (List.cons.inj hsign).1 hminus
      · rename_i hsign
        exact absurd (List.cons.inj hsign).1 hplus
      · rfl

theorem leadingInteger_gap {gap : List Char} (hgap : ∀ c ∈ gap, Text.isBlank c = true)
    (s : List Char) : leadingInteger (gap ++ s) = leadingInteger s := by
  unfold leadingInteger
  rw [Text.trimStart_gap hgap]

namespace Reading

theorem bare (r : Reading) (hsign : r.sign = .unsigned) :
    ∀ c ∈ (r.digits ++ r.rest).head?, Text.isBlank c = false ∧ c ≠ '-' ∧ c ≠ '+' := by
  cases hdigits : r.digits with
  | nil => exact r.rest_bare hsign hdigits
  | cons c digits =>
      have hc : c.isDigit = true := r.digits_digit c (hdigits ▸ List.mem_cons_self)
      rintro _ ⟨⟩
      refine ⟨isBlank_of_isDigit hc, ?_, ?_⟩
      · rintro rfl
        cases hc
      · rintro rfl
        cases hc

/-- A text counts for the number it begins with, reduced to a word. -/
theorem leadingInteger_text (r : Reading) : leadingInteger r.text = Int64.ofInt r.number := by
  have hdigits : wrapDigits 0 (r.digits ++ r.rest) =
      Int64.ofInt (Nat.ofDigitChars 10 r.digits 0 : Nat) := by
    rw [Int64.ofInt_eq_ofNat]
    exact wrapDigits_append r.digits_digit r.rest_digit 0
  rw [text, List.append_assoc, List.append_assoc, leadingInteger_gap r.blanks_blank, number]
  cases hsign : r.sign with
  | unsigned => exact (leadingInteger_of_bare (r.bare hsign)).trans hdigits
  | plus =>
      rw [Sign.text, List.singleton_append, leadingInteger, Text.trimStart_cons (by decide)]
      exact hdigits
  | minus =>
      rw [Sign.text, List.singleton_append, leadingInteger, Text.trimStart_cons (by decide)]
      exact (congrArg (- ·) hdigits).trans (Int64.ofInt_neg _).symm

/-- A text starts with all it can of one class of characters. -/
private theorem exists_run (p : Char → Bool) (s : List Char) :
    ∃ run rest, s = run ++ rest ∧ (∀ c ∈ run, p c = true) ∧ ∀ c ∈ rest.head?, p c = false := by
  refine ⟨s.takeWhile p, s.dropWhile p, List.takeWhile_append_dropWhile.symm, ?_, ?_⟩
  · exact List.all_eq_true.mp List.all_takeWhile
  · intro c hc
    have hhead := List.head?_dropWhile_not p s
    rwa [hc] at hhead

private theorem exists_text_eq_of_sign {blanks : List Char}
    (hblanks : ∀ c ∈ blanks, Text.isBlank c = true) (sign : Sign) (tail : List Char)
    (hbare : sign = .unsigned → ∀ c ∈ tail.head?, Text.isBlank c = false ∧ c ≠ '-' ∧ c ≠ '+') :
    ∃ r : Reading, r.text = blanks ++ (sign.text ++ tail) := by
  obtain ⟨digits, rest, rfl, hdigits, hrest⟩ := exists_run Char.isDigit tail
  refine ⟨⟨blanks, sign, digits, rest, hblanks, hdigits, hrest, ?_⟩, ?_⟩
  · rintro hsign rfl
    exact hbare hsign
  · simp only [text, List.append_assoc]

/-- Every text has these parts. -/
theorem exists_text_eq (s : List Char) : ∃ r : Reading, r.text = s := by
  obtain ⟨blanks, body, rfl, hblanks, hbody⟩ := exists_run Text.isBlank s
  by_cases hminus : ∃ tail, body = '-' :: tail
  · obtain ⟨tail, rfl⟩ := hminus
    exact exists_text_eq_of_sign hblanks .minus tail nofun
  by_cases hplus : ∃ tail, body = '+' :: tail
  · obtain ⟨tail, rfl⟩ := hplus
    exact exists_text_eq_of_sign hblanks .plus tail nofun
  refine exists_text_eq_of_sign hblanks .unsigned body fun _ c hc => ⟨hbody c hc, ?_, ?_⟩
  · rintro rfl
    exact hminus (List.head?_eq_some_iff.mp hc)
  · rintro rfl
    exact hplus (List.head?_eq_some_iff.mp hc)

/-- The text of a number, taken apart. -/
def ofNumber (n : Int64) : Reading where
  blanks := []
  sign := if n.toInt < 0 then .minus else .unsigned
  digits := Nat.toDigits 10 n.toInt.natAbs
  rest := []
  blanks_blank := List.forall_mem_nil _
  digits_digit _ := Text.isDigit_of_mem_toDigits
  rest_digit := nofun
  rest_bare _ _ := nofun

theorem text_ofNumber (n : Int64) : (ofNumber n).text = Text.decimal n.toInt := by
  unfold text ofNumber Text.decimal
  split <;> simp [Sign.text]

theorem number_ofNumber (n : Int64) : (ofNumber n).number = n.toInt := by
  unfold number ofNumber
  rw [Nat.ofDigitChars_ten_toDigits]
  split <;> simp only [Sign.apply] <;> omega

end Reading

/-- A text is a number by what it begins with. The text of a word counts as the word. Any text is
made of blanks, a sign, digits and a rest that does not go on with them, and counts as the number
that the digits write under the sign, however many they are, reduced modulo 2^64 to the signed
words. -/
theorem asNumber_of_leading_digits :
    (∀ n : Int64, (text (number n).asText).asNumber = n) ∧
    (∀ r : Reading, (text (String.ofList r.text)).asNumber.toInt = r.number.bmod (2 ^ 64)) ∧
    ∀ s : String, ∃ r : Reading, s = String.ofList r.text := by
  refine ⟨?_, ?_, ?_⟩
  · intro n
    rw [asText, asNumber, String.toList_ofList, ← Reading.text_ofNumber,
      Reading.leadingInteger_text, Reading.number_ofNumber, Int64.ofInt_toInt]
  · intro r
    rw [asNumber, String.toList_ofList, r.leadingInteger_text, Int64.toInt_ofInt]
    rfl
  · intro s
    obtain ⟨r, hr⟩ := Reading.exists_text_eq s.toList
    exact ⟨r, by rw [hr, String.ofList_toList]⟩

end PanelSkin.Value
