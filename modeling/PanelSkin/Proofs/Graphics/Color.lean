import Mathlib
import PanelSkin.Graphics.Color
import PanelSkin.Proofs.Text.Blank
import PanelSkin.Proofs.Text.Numeral

/-!
The texts that stand for colors. A color is the number that its four bytes make, and the texts of a
color are told by a relation: its name, if it has one, in any case, or its number in hexadecimal or
decimal. Reading follows the relation, with numbers in which a plus sign may stand before the
digits and is counted as one of them. So the texts without a sign are the ones that are read by
the rule for digits alone.
-/

namespace PanelSkin.Color

/-- The number whose bytes are alpha, red, green and blue, high to low. -/
def argb (c : Color) : Nat :=
  c.a.toNat * 0x1000000 + c.r.toNat * 0x10000 + c.g.toNat * 0x100 + c.b.toNat

theorem argb_lt (c : Color) : c.argb < 0x100000000 := by
  have ha := c.a.toNat_lt
  have hr := c.r.toNat_lt
  have hg := c.g.toNat_lt
  have hb := c.b.toNat_lt
  unfold argb
  omega

theorem ofArgb_argb (c : Color) : ofArgb c.argb = c := by
  have ha := c.a.toNat_lt
  have hr := c.r.toNat_lt
  have hg := c.g.toNat_lt
  have hb := c.b.toNat_lt
  obtain ⟨r, g, b, a⟩ := c
  simp only [ofArgb, argb, Color.mk.injEq, ← UInt8.toNat_inj, UInt8.toNat_ofNat']
  dsimp only at ha hr hg hb
  omega

theorem argb_ofArgb {n : Nat} (h : n < 0x100000000) : (ofArgb n).argb = n := by
  simp only [ofArgb, argb, UInt8.toNat_ofNat']
  omega

theorem ofArgb_eq_iff {n : Nat} (h : n < 0x100000000) {c : Color} : ofArgb n = c ↔ c.argb = n := by
  constructor
  · rintro rfl
    exact argb_ofArgb h
  · rintro rfl
    exact ofArgb_argb c

/-- Three bytes are completed by the alpha byte of an opaque color. -/
theorem ofRgb_eq_iff {n : Nat} (h : n < 0x1000000) {c : Color} :
    ofRgb n = c ↔ c.argb = 0xFF000000 + n := by
  have hbytes : ofRgb n = ofArgb (0xFF000000 + n) := by
    simp only [ofRgb, ofArgb, Color.mk.injEq, ← UInt8.toNat_inj, UInt8.toNat_ofNat',
      UInt8.reduceToNat]
    omega
  rw [hbytes, ofArgb_eq_iff (by omega)]

/-- A small letter, or the capital that goes with it. -/
def InEitherCase (c d : Char) : Prop := c = d ∨ c = d.toUpper

/-- The texts of colors. Letters may be of either case. The digits of a number may follow a plus
sign if `plus` says so, and a hexadecimal number is taken for three or four bytes by its length. -/
inductive Spells (plus : Bool) : List Char → Color → Prop where
  | name {name : String} {color : Color} {text : List Char} (hname : (name, color) ∈ named)
      (htext : List.Forall₂ InEitherCase text name.toList) : Spells plus text color
  | hexadecimal {x : Char} {sign digits : List Char} {n : Nat} {color : Color}
      (hx : x = 'x' ∨ x = 'X') (hsign : sign = [] ∨ plus = true ∧ sign = ['+'])
      (hdigits : Text.Writes 16 digits n) (hlength : (sign ++ digits).length ≤ 8)
      (hcolor : color.argb = if (sign ++ digits).length ≤ 6 then 0xFF000000 + n else n) :
      Spells plus ('0' :: x :: (sign ++ digits)) color
  | decimal {sign digits : List Char} {n : Nat} {color : Color}
      (hsign : sign = [] ∨ plus = true ∧ sign = ['+']) (hdigits : Text.Writes 10 digits n)
      (hrange : n < 0x100000000)
      (hcolor : color.argb = if n < 0x1000000 then 0xFF000000 + n else n) :
      Spells plus (sign ++ digits) color

/-! Names. -/

theorem toLower_eq_iff {c d : Char} (hd : d.isLower = true) :
    c.toLower = d ↔ InEitherCase c d := by
  have hlower : d.toLower = d := Char.toLower_eq_of_not_isUpper (Char.not_isUpper_of_isLower hd)
  constructor
  · rintro rfl
    by_cases hc : c.isUpper = true
    · right
      rw [Char.toUpper_toLower_eq_toUpper,
        Char.toUpper_eq_of_not_isLower (Char.not_isLower_of_isUpper hc)]
    · left
      exact (Char.toLower_eq_of_not_isUpper hc).symm
  · rintro (rfl | rfl)
    · exact hlower
    · rw [Char.toLower_toUpper_eq_toLower, hlower]

theorem isAlpha_of_isDigit {c : Char} (h : c.isDigit = true) : c.isAlpha = false := by
  have hdigit := Text.toNat_of_isDigit h
  rw [Bool.eq_false_iff]
  intro hletter
  have hletter := Text.toNat_of_isAlpha hletter
  omega

theorem isLower_of_mem_named {entry : String × Color} (hentry : entry ∈ named) :
    ∀ d ∈ entry.1.toList, d.isLower = true := by
  have hall : (named.all fun entry => entry.1.toList.all Char.isLower) = true := by decide
  exact List.all_eq_true.mp (List.all_eq_true.mp hall entry hentry)

theorem lookup_of_mem_named : ∀ entry ∈ named, named.lookup entry.1 = some entry.2 := by
  decide

theorem mem_named_of_lookup {name : String} {color : Color} (h : named.lookup name = some color) :
    (name, color) ∈ named := by
  obtain ⟨before, after, hsplit, -⟩ := List.lookup_eq_some_iff.mp h
  simp [hsplit]

/-- Words of small letters are what other texts are in lower case that differ in case only. -/
theorem map_toLower_eq_iff {text word : List Char} (h : ∀ d ∈ word, d.isLower = true) :
    text.map Char.toLower = word ↔ List.Forall₂ InEitherCase text word := by
  induction word generalizing text with
  | nil => rw [List.map_eq_nil_iff, List.forall₂_nil_right_iff]
  | cons d word ih =>
      obtain ⟨hd, hword⟩ := List.forall_mem_cons.mp h
      cases text with
      | nil => simp
      | cons c text =>
          rw [List.map_cons, List.cons.injEq, List.forall₂_cons, toLower_eq_iff hd, ih hword]

theorem lookup_eq_some_iff {text : List Char} {color : Color} :
    named.lookup (String.ofList (text.map Char.toLower)) = some color ↔
      ∃ name, (name, color) ∈ named ∧ List.Forall₂ InEitherCase text name.toList := by
  have hsame {name : String} (hname : (name, color) ∈ named) :
      String.ofList (text.map Char.toLower) = name ↔
        List.Forall₂ InEitherCase text name.toList := by
    rw [← String.toList_inj, String.toList_ofList,
      map_toLower_eq_iff (isLower_of_mem_named hname)]
  constructor
  · intro h
    have hname := mem_named_of_lookup h
    exact ⟨_, hname, (hsame hname).mp rfl⟩
  · rintro ⟨name, hname, htext⟩
    rw [(hsame hname).mpr htext]
    exact lookup_of_mem_named _ hname

/-- No decimal digit is in a name. -/
theorem lookup_eq_none {text : List Char} {c : Char} (hc : c.isDigit = true) (h : c ∈ text) :
    named.lookup (String.ofList (text.map Char.toLower)) = none := by
  rw [Option.eq_none_iff_forall_ne_some]
  intro color hlookup
  have hlower : c.toLower.isLower = true :=
    isLower_of_mem_named (mem_named_of_lookup hlookup) _ (by simpa using ⟨_, h, rfl⟩)
  rw [Char.isLower_toLower_eq_isAlpha, isAlpha_of_isDigit hc] at hlower
  exact Bool.false_ne_true hlower

/-! Numbers. -/

theorem lt_of_length_le {sign digits : List Char} {n count : Nat} (hdigits : Text.Writes 16 digits n)
    (h : (sign ++ digits).length ≤ count) : n < 16 ^ count := by
  have hlength : digits.length ≤ count := by
    rw [List.length_append] at h
    omega
  exact (hdigits.lt_pow (by decide)).trans_le (Nat.pow_le_pow_right (by decide) hlength)

theorem ofHex?_eq_some_iff {text : List Char} {color : Color} :
    ofHex? text = some color ↔ ∃ sign digits n, text = sign ++ digits ∧
      (sign = [] ∨ sign = ['+']) ∧ Text.Writes 16 digits n ∧ (sign ++ digits).length ≤ 8 ∧
      color.argb = if (sign ++ digits).length ≤ 6 then 0xFF000000 + n else n := by
  have hvalue {sign digits : List Char} {n : Nat} (hdigits : Text.Writes 16 digits n) :
      (if (sign ++ digits).length ≤ 6 then some (ofRgb n)
        else if (sign ++ digits).length ≤ 8 then some (ofArgb n) else none) = some color ↔
      (sign ++ digits).length ≤ 8 ∧
        color.argb = if (sign ++ digits).length ≤ 6 then 0xFF000000 + n else n := by
    split_ifs with hshort hlong
    · rw [Option.some.injEq, ofRgb_eq_iff (lt_of_length_le hdigits hshort)]
      exact (and_iff_right (by omega)).symm
    · rw [Option.some.injEq, ofArgb_eq_iff (lt_of_length_le hdigits hlong)]
      exact (and_iff_right hlong).symm
    · exact ⟨nofun, fun h => absurd h.1 hlong⟩
  unfold ofHex?
  rw [Option.bind_eq_bind, Option.bind_eq_some_iff]
  constructor
  · rintro ⟨n, hread, hcolor⟩
    obtain ⟨sign, digits, rfl, hsign, hdigits, -⟩ := (Text.readUnsigned_eq_some_iff le_rfl).mp hread
    exact ⟨sign, digits, n, rfl, hsign, hdigits, (hvalue hdigits).mp hcolor⟩
  · rintro ⟨sign, digits, n, rfl, hsign, hdigits, hcolor⟩
    exact ⟨n, (Text.readUnsigned_eq_some_iff le_rfl).mpr
      ⟨sign, digits, rfl, hsign, hdigits, lt_of_length_le hdigits hcolor.1⟩,
      (hvalue hdigits).mpr hcolor⟩

theorem ofDecimal?_eq_some_iff {text : List Char} {color : Color} :
    ofDecimal? text = some color ↔ ∃ sign digits n, text = sign ++ digits ∧
      (sign = [] ∨ sign = ['+']) ∧ Text.Writes 10 digits n ∧ n < 0x100000000 ∧
      color.argb = if n < 0x1000000 then 0xFF000000 + n else n := by
  have hvalue {n : Nat} (hrange : n < 0x100000000) :
      (if n < 0x1000000 then some (ofRgb n) else some (ofArgb n)) = some color ↔
        color.argb = if n < 0x1000000 then 0xFF000000 + n else n := by
    split_ifs with hsmall
    · rw [Option.some.injEq, ofRgb_eq_iff hsmall]
    · rw [Option.some.injEq, ofArgb_eq_iff hrange]
  unfold ofDecimal? Text.readNat32
  rw [Option.bind_eq_bind, Option.bind_eq_some_iff]
  constructor
  · rintro ⟨n, hread, hcolor⟩
    obtain ⟨sign, digits, rfl, hsign, hdigits, hrange⟩ :=
      (Text.readUnsigned_eq_some_iff (by decide)).mp hread
    exact ⟨sign, digits, n, rfl, hsign, hdigits, hrange, (hvalue hrange).mp hcolor⟩
  · rintro ⟨sign, digits, n, rfl, hsign, hdigits, hrange, hcolor⟩
    exact ⟨n, (Text.readUnsigned_eq_some_iff (by decide)).mpr
      ⟨sign, digits, rfl, hsign, hdigits, hrange⟩, (hvalue hrange).mpr hcolor⟩

/-- No letter is in a decimal number. -/
theorem isAlpha_of_mem {plus : Bool} {sign digits : List Char} {n : Nat} {c : Char}
    (hsign : sign = [] ∨ plus = true ∧ sign = ['+']) (hdigits : Text.Writes 10 digits n)
    (h : c ∈ sign ++ digits) : c.isAlpha = false := by
  rcases List.mem_append.mp h with hc | hc
  · rcases hsign with rfl | ⟨-, rfl⟩
    · cases hc
    · rw [List.mem_singleton.mp hc]
      rfl
  · exact isAlpha_of_isDigit (hdigits.isDigit c hc)

/-- Reading follows the rule that takes a plus sign for a digit. -/
theorem parse?_eq_some_iff {text : String} {color : Color} :
    parse? text = some color ↔ Spells true (Text.trim text.toList) color := by
  unfold parse?
  dsimp only
  generalize Text.trim text.toList = s
  constructor
  · intro h
    split at h
    · rename_i found hlookup
      cases h
      obtain ⟨name, hname, htext⟩ := lookup_eq_some_iff.mp hlookup
      exact .name hname htext
    · split at h
      · obtain ⟨sign, digits, n, rfl, hsign, hdigits, hlength, hcolor⟩ := ofHex?_eq_some_iff.mp h
        exact .hexadecimal (Or.inl rfl) (by simpa using hsign) hdigits hlength hcolor
      · obtain ⟨sign, digits, n, rfl, hsign, hdigits, hlength, hcolor⟩ := ofHex?_eq_some_iff.mp h
        exact .hexadecimal (Or.inr rfl) (by simpa using hsign) hdigits hlength hcolor
      · obtain ⟨sign, digits, n, rfl, hsign, hdigits, hrange, hcolor⟩ :=
          ofDecimal?_eq_some_iff.mp h
        exact .decimal (by simpa using hsign) hdigits hrange hcolor
  · intro h
    cases h with
    | name hname htext => rw [lookup_eq_some_iff.mpr ⟨_, hname, htext⟩]
    | @hexadecimal x sign digits n _ hx hsign hdigits hlength hcolor =>
        have hread := ofHex?_eq_some_iff.mpr
          ⟨sign, digits, n, rfl, by simpa using hsign, hdigits, hlength, hcolor⟩
        rw [lookup_eq_none (by decide : Char.isDigit '0' = true) List.mem_cons_self]
        rcases hx with rfl | rfl
        · exact hread
        · exact hread
    | @decimal sign digits n _ hsign hdigits hrange hcolor =>
        have hread := ofDecimal?_eq_some_iff.mpr
          ⟨sign, digits, n, rfl, by simpa using hsign, hdigits, hrange, hcolor⟩
        have hplain (x : Char) (hx : x.isAlpha = true) (rest : List Char) :
            sign ++ digits ≠ '0' :: x :: rest := by
          intro hsame
          have hmem : x ∈ sign ++ digits := by simp [hsame]
          exact absurd hx (by simp [isAlpha_of_mem hsign hdigits hmem])
        obtain ⟨c, hc⟩ := List.exists_mem_of_ne_nil digits hdigits.ne_nil
        rw [lookup_eq_none (hdigits.isDigit c hc) (List.mem_append_right sign hc)]
        dsimp only
        split
        · rename_i rest hsame
          exact absurd hsame (hplain 'x' rfl rest)
        · rename_i rest hsame
          exact absurd hsame (hplain 'X' rfl rest)
        · exact hread

theorem Spells.with_sign {plus : Bool} {text : List Char} {color : Color}
    (h : Spells plus text color) : Spells true text color := by
  cases h with
  | name hname htext => exact .name hname htext
  | hexadecimal hx hsign hdigits hlength hcolor =>
      exact .hexadecimal hx (hsign.imp_right fun hplus => ⟨rfl, hplus.2⟩) hdigits hlength hcolor
  | decimal hsign hdigits hrange hcolor =>
      exact .decimal (hsign.imp_right fun hplus => ⟨rfl, hplus.2⟩) hdigits hrange hcolor

theorem sign_eq_nil {plus : Bool} {sign digits : List Char}
    (hsign : sign = [] ∨ plus = true ∧ sign = ['+']) (h : '+' ∉ sign ++ digits) : sign = [] := by
  refine hsign.resolve_right ?_
  rintro ⟨-, rfl⟩
  exact h List.mem_cons_self

/-- The texts of the rule for digits alone are those of the other without a plus sign. -/
theorem spells_false_iff {text : List Char} {color : Color} :
    Spells false text color ↔ Spells true text color ∧ '+' ∉ text := by
  have hunsigned {base n : Nat} {digits : List Char} (hbase : base ≤ 16)
      (hdigits : Text.Writes base digits n) : '+' ∉ digits :=
    fun hplus => Bool.false_ne_true (hdigits.isAlphanum hbase '+' hplus)
  constructor
  · intro h
    refine ⟨h.with_sign, ?_⟩
    cases h with
    | @name name _ _ hname htext =>
        intro hplus
        have hlower := (map_toLower_eq_iff (isLower_of_mem_named hname)).mpr htext
        have hmem : '+' ∈ name.toList := by
          rw [← hlower]
          exact List.mem_map_of_mem hplus
        exact Bool.false_ne_true (isLower_of_mem_named hname '+' hmem)
    | @hexadecimal x sign digits n _ hx hsign hdigits =>
        obtain rfl : sign = [] := by simpa using hsign
        have hdigits := hunsigned le_rfl hdigits
        rcases hx with rfl | rfl <;> simpa using hdigits
    | @decimal sign digits n _ hsign hdigits =>
        obtain rfl : sign = [] := by simpa using hsign
        exact hunsigned (by decide) hdigits
  · rintro ⟨h, hplus⟩
    cases h with
    | name hname htext => exact .name hname htext
    | hexadecimal hx hsign hdigits hlength hcolor =>
        rw [List.mem_cons, not_or, List.mem_cons, not_or] at hplus
        exact .hexadecimal hx (Or.inl (sign_eq_nil hsign hplus.2.2)) hdigits hlength hcolor
    | decimal hsign hdigits hrange hcolor =>
        exact .decimal (Or.inl (sign_eq_nil hsign hplus)) hdigits hrange hcolor

/-! Colors written in full. -/

/-- The last hexadecimal digits of a number, as many as are asked for. -/
def hexDigits : Nat → Nat → List Char
  | 0, _ => []
  | count + 1, n => hexDigits count (n / 16) ++ [(n % 16).digitChar]

/-- The text of a color with all eight digits. -/
def hexText (c : Color) : String := String.ofList ('0' :: 'x' :: hexDigits 8 c.argb)

theorem length_hexDigits (count n : Nat) : (hexDigits count n).length = count := by
  induction count generalizing n with
  | zero => rfl
  | succ count ih => rw [hexDigits, List.length_append, ih, List.length_singleton]

theorem exists_forall₂_hexDigits {count n : Nat} (h : n < 16 ^ count) :
    ∃ digits, List.Forall₂ (Text.IsDigit 16) (hexDigits count n) digits ∧
      n = Nat.ofDigits 16 digits.reverse := by
  induction count generalizing n with
  | zero => exact ⟨[], .nil, by simpa using h⟩
  | succ count ih =>
      have hrest : n / 16 < 16 ^ count := Nat.div_lt_of_lt_mul (by rwa [← Nat.pow_succ'])
      obtain ⟨digits, hdigits, hn⟩ := ih hrest
      have hlast : Text.IsDigit 16 (n % 16).digitChar (n % 16) :=
        ⟨Nat.mod_lt _ (by decide), Or.inl rfl⟩
      refine ⟨digits ++ [n % 16], List.rel_append hdigits (.cons hlast .nil), ?_⟩
      rw [List.reverse_append, List.reverse_singleton, List.singleton_append, Nat.ofDigits_cons,
        ← hn]
      simp [Nat.mod_add_div]

theorem writes_hexDigits {count n : Nat} (h : n < 16 ^ (count + 1)) :
    Text.Writes 16 (hexDigits (count + 1) n) n := by
  obtain ⟨digits, hdigits, hn⟩ := exists_forall₂_hexDigits h
  refine ⟨digits, ?_, hdigits, hn⟩
  rintro rfl
  simpa [length_hexDigits] using hdigits.length_eq

/-- A number of four bytes has no blanks in its text, and its color is read. -/
theorem spells_hexDigits {n : Nat} (h : n < 16 ^ 8) {c : Color} (hcolor : c.argb = n) :
    Spells true (Text.trim ('0' :: 'x' :: hexDigits 8 n)) c := by
  have hwrites : Text.Writes 16 (hexDigits 8 n) n := writes_hexDigits h
  have hplain : ∀ d ∈ '0' :: 'x' :: hexDigits 8 n, Text.isBlank d = false := by
    simp only [List.forall_mem_cons]
    exact ⟨rfl, rfl, fun d hd => Text.isBlank_of_isAlphanum (hwrites.isAlphanum le_rfl d hd)⟩
  have hlength : ([] ++ hexDigits 8 n).length = 8 := by rw [List.nil_append, length_hexDigits]
  rw [Text.trim_of_forall hplain]
  refine @Spells.hexadecimal true 'x' [] (hexDigits 8 n) n c (Or.inl rfl) (Or.inl rfl) hwrites
    hlength.le ?_
  rw [hlength, if_neg (by decide), hcolor]

theorem parse?_hexText (c : Color) : parse? c.hexText = some c := by
  rw [parse?_eq_some_iff, hexText, String.toList_ofList]
  exact spells_hexDigits (c.argb_lt.trans_eq (by norm_num)) rfl

/-- Reading takes the names in any case, and numbers in hexadecimal or decimal in front of whose
digits there may be a plus sign. Without the sign it takes the texts of the rule for digits alone,
and no text with a sign is one of these. A color comes back from the text with all its digits. -/
theorem reading_spells_colors (text : String) (color : Color) :
    (parse? text = some color ↔ Spells true (Text.trim text.toList) color) ∧
      (Spells false (Text.trim text.toList) color ↔
        parse? text = some color ∧ '+' ∉ Text.trim text.toList) ∧
      parse? color.hexText = some color := by
  refine ⟨parse?_eq_some_iff, ?_, parse?_hexText color⟩
  rw [parse?_eq_some_iff]
  exact spells_false_iff

/-- Behind a plus sign six digits are taken for an alpha byte and three others, though they are no
number with digits only, and three bytes are to be opaque. -/
theorem reading_takes_sign_for_digit :
    parse? "0x+FF0000" = some ⟨255, 0, 0, 0⟩ ∧
      ∀ color, ¬ Spells false (Text.trim "0x+FF0000".toList) color := by
  refine ⟨by decide, ?_⟩
  intro color h
  exact (spells_false_iff.mp h).2 (by decide)

end PanelSkin.Color
