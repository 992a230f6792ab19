import PanelSkin.Proofs.Text.Utf8

/-!
Bytes as they are decoded: a cut into pieces, each of which is read as one character. A piece is
the UTF-8 sequence of its character or one byte at which no sequence starts. What is read at one
place decides the piece there, and from it follows, piece by piece, how all bytes are read. A byte
of ASCII is always a piece of its own, so what stands in front of it and what stands behind it are
read as if the other were not there.
-/

namespace PanelSkin.Text

open String (utf8EncodeChar)

/-- In front of `rest`, `piece` is read as `c`: it is the UTF-8 sequence of `c`, or one byte at
which no sequence starts, and then `c` has the value of the byte. -/
def IsPiece (piece : List UInt8) (c : Char) (rest : List UInt8) : Prop :=
  piece = utf8EncodeChar c ∨
    ∃ byte, piece = [byte] ∧ c.toNat = byte.toNat ∧ ∀ d, ¬ utf8EncodeChar d <+: byte :: rest

/-- Bytes cut into pieces, with the character of each piece. -/
inductive Cut : List UInt8 → List (List UInt8 × Char) → Prop where
  | nil : Cut [] []
  | cons {piece rest : List UInt8} {c : Char} {pieces : List (List UInt8 × Char)}
      (hpiece : IsPiece piece c rest) (hrest : Cut rest pieces) :
      Cut (piece ++ rest) ((piece, c) :: pieces)

/-! The piece at one place. -/

private theorem continuation_eq_some {b : UInt8} {n : Nat} (h : continuation b = some n) :
    n < 64 ∧ b.toNat = n + 0x80 := by
  unfold continuation at h
  split at h
  · rename_i hrange
    simp only [UInt8.le_iff_toNat_le, UInt8.toNat_ofNat] at hrange
    have hvalue := Option.some.inj h
    omega
  · cases h

private theorem scalarFrom_eq_some {least n : Nat} {c : Char} (h : scalarFrom least n = some c) :
    least ≤ n ∧ c.toNat = n := by
  unfold scalarFrom at h
  split at h
  · rename_i hrange
    obtain rfl := Option.some.inj h
    exact ⟨hrange.1, rfl⟩
  · cases h

private theorem byte_eq_ofNat {b : UInt8} {n : Nat} (h : b.toNat = n) : UInt8.ofNat n = b := by
  rw [← h, UInt8.ofNat_toNat]

private theorem pairChar_eq_some {a : UInt8} {rest : List UInt8} {c : Char}
    (hleast : 0xC2 ≤ a.toNat) (hmost : a.toNat ≤ 0xDF) (h : pairChar a rest = some c) :
    ∃ b back, rest = b :: back ∧ utf8EncodeChar c = [a, b] := by
  unfold pairChar at h
  split at h
  · rename_i b back
    obtain ⟨low, hlow, h⟩ := Option.bind_eq_some_iff.mp h
    obtain ⟨hsmall, hb⟩ := continuation_eq_some hlow
    obtain ⟨hshort, hc⟩ := scalarFrom_eq_some h
    refine ⟨b, back, rfl, ?_⟩
    have hval : c.val.toNat = c.toNat := rfl
    simp only [utf8EncodeChar, hval]
    rw [if_neg (by omega), if_pos (by omega), byte_eq_ofNat (b := a) (by omega),
      byte_eq_ofNat (b := b) (by omega)]
  · cases h

private theorem tripleChar_eq_some {a : UInt8} {rest : List UInt8} {c : Char}
    (hleast : 0xE0 ≤ a.toNat) (hmost : a.toNat ≤ 0xEF) (h : tripleChar a rest = some c) :
    ∃ b₁ b₂ back, rest = b₁ :: b₂ :: back ∧ utf8EncodeChar c = [a, b₁, b₂] := by
  unfold tripleChar at h
  split at h
  · rename_i b₁ b₂ back
    obtain ⟨middle, hmiddle, h⟩ := Option.bind_eq_some_iff.mp h
    obtain ⟨low, hlow, h⟩ := Option.bind_eq_some_iff.mp h
    obtain ⟨hsmall₁, hb₁⟩ := continuation_eq_some hmiddle
    obtain ⟨hsmall₂, hb₂⟩ := continuation_eq_some hlow
    obtain ⟨hshort, hc⟩ := scalarFrom_eq_some h
    refine ⟨b₁, b₂, back, rfl, ?_⟩
    have hval : c.val.toNat = c.toNat := rfl
    simp only [utf8EncodeChar, hval]
    rw [if_neg (by omega), if_neg (by omega), if_pos (by omega), byte_eq_ofNat (b := a) (by omega),
      byte_eq_ofNat (b := b₁) (by omega), byte_eq_ofNat (b := b₂) (by omega)]
  · cases h

private theorem quadChar_eq_some {a : UInt8} {rest : List UInt8} {c : Char}
    (hleast : 0xF0 ≤ a.toNat) (hmost : a.toNat ≤ 0xF4) (h : quadChar a rest = some c) :
    ∃ b₁ b₂ b₃ back, rest = b₁ :: b₂ :: b₃ :: back ∧ utf8EncodeChar c = [a, b₁, b₂, b₃] := by
  unfold quadChar at h
  split at h
  · rename_i b₁ b₂ b₃ back
    obtain ⟨high, hhigh, h⟩ := Option.bind_eq_some_iff.mp h
    obtain ⟨middle, hmiddle, h⟩ := Option.bind_eq_some_iff.mp h
    obtain ⟨low, hlow, h⟩ := Option.bind_eq_some_iff.mp h
    obtain ⟨hsmall₁, hb₁⟩ := continuation_eq_some hhigh
    obtain ⟨hsmall₂, hb₂⟩ := continuation_eq_some hmiddle
    obtain ⟨hsmall₃, hb₃⟩ := continuation_eq_some hlow
    obtain ⟨hshort, hc⟩ := scalarFrom_eq_some h
    refine ⟨b₁, b₂, b₃, back, rfl, ?_⟩
    have hval : c.val.toNat = c.toNat := rfl
    simp only [utf8EncodeChar, hval]
    rw [if_neg (by omega), if_neg (by omega), if_neg (by omega), byte_eq_ofNat (b := a) (by omega),
      byte_eq_ofNat (b := b₁) (by omega), byte_eq_ofNat (b := b₂) (by omega),
      byte_eq_ofNat (b := b₃) (by omega)]
  · cases h

/-- What is read at a byte is a sequence that starts with it, or the byte alone. -/
private theorem leadChar_cases (a : UInt8) (rest : List UInt8) :
    (∃ tail back c, rest = tail ++ back ∧ utf8EncodeChar c = a :: tail ∧
        leadChar a rest = (c, tail.length)) ∨
      leadChar a rest = (Char.ofNat a.toNat, 0) := by
  simp only [leadChar, UInt8.le_iff_toNat_le, UInt8.toNat_ofNat]
  split_ifs with hpair htriple hquad
  · cases h : pairChar a rest with
    | none => exact Or.inr rfl
    | some c =>
        obtain ⟨b, back, rfl, hc⟩ := pairChar_eq_some hpair.1 hpair.2 h
        exact Or.inl ⟨[b], back, c, rfl, hc, rfl⟩
  · cases h : tripleChar a rest with
    | none => exact Or.inr rfl
    | some c =>
        obtain ⟨b₁, b₂, back, rfl, hc⟩ := tripleChar_eq_some htriple.1 htriple.2 h
        exact Or.inl ⟨[b₁, b₂], back, c, rfl, hc, rfl⟩
  · cases h : quadChar a rest with
    | none => exact Or.inr rfl
    | some c =>
        obtain ⟨b₁, b₂, b₃, back, rfl, hc⟩ := quadChar_eq_some hquad.1 hquad.2 h
        exact Or.inl ⟨[b₁, b₂, b₃], back, c, rfl, hc, rfl⟩
  · exact Or.inr rfl

/-- A sequence is read where it stands. -/
theorem leadChar_of_prefix {a : UInt8} {rest : List UInt8} {c : Char}
    (h : utf8EncodeChar c <+: a :: rest) :
    ∃ tail, utf8EncodeChar c = a :: tail ∧ leadChar a rest = (c, tail.length) := by
  obtain ⟨back, hback⟩ := h
  obtain ⟨lead, tail, hbytes, hlead⟩ := leadChar_utf8EncodeChar c back
  rw [hbytes] at hback
  obtain ⟨rfl, rfl⟩ := List.cons.inj hback
  exact ⟨tail, hbytes, hlead⟩

theorem toNat_ofNat_toNat (b : UInt8) : (Char.ofNat b.toNat).toNat = b.toNat := by
  have hbyte := b.toNat_lt
  have hvalid : b.toNat.isValidChar := Or.inl (by omega)
  rw [Char.ofNat, dif_pos hvalid]
  rfl

/-- At every byte a piece is read, and it ends within the bytes. -/
theorem leadChar_isPiece (a : UInt8) (rest : List UInt8) :
    ∃ tail back, rest = tail ++ back ∧ (leadChar a rest).2 = tail.length ∧
      IsPiece (a :: tail) (leadChar a rest).1 back := by
  rcases leadChar_cases a rest with ⟨tail, back, c, hrest, hc, hlead⟩ | hlead
  · rw [hlead]
    exact ⟨tail, back, hrest, rfl, Or.inl hc.symm⟩
  · rw [hlead]
    refine ⟨[], rest, rfl, rfl, ?_⟩
    by_cases hstarts : ∃ d, utf8EncodeChar d <+: a :: rest
    · obtain ⟨d, hd⟩ := hstarts
      obtain ⟨tail, hbytes, hread⟩ := leadChar_of_prefix hd
      obtain ⟨rfl, htail⟩ := Prod.mk.inj (hread.symm.trans hlead)
      rw [List.length_eq_zero_iff.mp htail] at hbytes
      exact Or.inl hbytes.symm
    · exact Or.inr ⟨a, rfl, toNat_ofNat_toNat a, not_exists.mp hstarts⟩

/-- Only one piece stands in front of a rest. -/
theorem IsPiece.leadChar_eq {piece rest : List UInt8} {c : Char} (h : IsPiece piece c rest) :
    ∃ a tail, piece = a :: tail ∧ leadChar a (tail ++ rest) = (c, tail.length) := by
  rcases h with rfl | ⟨a, rfl, hvalue, hnone⟩
  · exact leadChar_utf8EncodeChar c rest
  · refine ⟨a, [], rfl, ?_⟩
    rcases leadChar_cases a rest with ⟨tail, back, d, rfl, hd, -⟩ | hlead
    · exact absurd ⟨back, by rw [hd]; rfl⟩ (hnone d)
    · rw [List.nil_append, hlead, ← hvalue, Char.ofNat_toNat]
      rfl

/-! All pieces. -/

theorem Cut.flatten {bytes : List UInt8} {pieces : List (List UInt8 × Char)}
    (h : Cut bytes pieces) : (pieces.map Prod.fst).flatten = bytes := by
  induction h with
  | nil => rfl
  | cons _ _ ih => rw [List.map_cons, List.flatten_cons, ih]

theorem decodeBytes_append_of_isPiece {piece rest : List UInt8} {c : Char}
    (h : IsPiece piece c rest) : decodeBytes (piece ++ rest) = c :: decodeBytes rest := by
  obtain ⟨a, tail, rfl, hlead⟩ := h.leadChar_eq
  simp only [decodeBytes, List.cons_append, decodeAfter, hlead, decodeAfter_append]

/-- Decoding reads the characters of the pieces. -/
theorem Cut.decodeBytes_eq {bytes : List UInt8} {pieces : List (List UInt8 × Char)}
    (h : Cut bytes pieces) : decodeBytes bytes = pieces.map Prod.snd := by
  induction h with
  | nil => rfl
  | cons hpiece _ ih => rw [decodeBytes_append_of_isPiece hpiece, ih, List.map_cons]

theorem exists_cut (bytes : List UInt8) : ∃ pieces, Cut bytes pieces := by
  induction hlength : bytes.length using Nat.strong_induction_on generalizing bytes with
  | _ length ih =>
    cases bytes with
    | nil => exact ⟨[], .nil⟩
    | cons a rest =>
        obtain ⟨tail, back, rfl, -, hpiece⟩ := leadChar_isPiece a rest
        rw [List.length_cons, List.length_append] at hlength
        obtain ⟨pieces, hpieces⟩ := ih back.length (by omega) back rfl
        exact ⟨_, .cons hpiece hpieces⟩

theorem Cut.cases_pieces {bytes : List UInt8} {pieces : List (List UInt8 × Char)}
    (h : Cut bytes pieces) :
    (bytes = [] ∧ pieces = []) ∨ ∃ piece c rest more, bytes = piece ++ rest ∧
      pieces = (piece, c) :: more ∧ IsPiece piece c rest ∧ Cut rest more := by
  cases h with
  | nil => exact Or.inl ⟨rfl, rfl⟩
  | cons hpiece hrest => exact Or.inr ⟨_, _, _, _, rfl, rfl, hpiece, hrest⟩

theorem IsPiece.ne_nil {piece rest : List UInt8} {c : Char} (h : IsPiece piece c rest) :
    piece ≠ [] := by
  obtain ⟨a, tail, rfl, -⟩ := h.leadChar_eq
  exact List.cons_ne_nil a tail

theorem Cut.forall_ne_nil {bytes : List UInt8} {pieces : List (List UInt8 × Char)}
    (h : Cut bytes pieces) : ∀ piece ∈ pieces, piece.1 ≠ [] := by
  induction h with
  | nil => exact List.forall_mem_nil _
  | cons hpiece _ ih => exact List.forall_mem_cons.mpr ⟨hpiece.ne_nil, ih⟩

/-- Where bytes begin, one piece is read. -/
theorem IsPiece.unique {piece other rest behind : List UInt8} {c d : Char}
    (h : IsPiece piece c rest) (hother : IsPiece other d behind)
    (hsame : piece ++ rest = other ++ behind) : piece = other ∧ c = d ∧ rest = behind := by
  obtain ⟨a, tail, rfl, hlead⟩ := h.leadChar_eq
  obtain ⟨b, ending, rfl, hread⟩ := hother.leadChar_eq
  rw [List.cons_append, List.cons_append] at hsame
  obtain ⟨rfl, htails⟩ := List.cons.inj hsame
  rw [htails, hread] at hlead
  obtain ⟨rfl, hlength⟩ := Prod.mk.inj hlead
  obtain ⟨rfl, rfl⟩ := List.append_inj htails hlength.symm
  exact ⟨rfl, rfl, rfl⟩

theorem Cut.unique {bytes : List UInt8} {pieces others : List (List UInt8 × Char)}
    (h : Cut bytes pieces) (hother : Cut bytes others) : others = pieces := by
  induction h generalizing others with
  | nil =>
      rcases hother.cases_pieces with ⟨-, hnone⟩ | ⟨piece, _, rest, _, hbytes, -, hpiece, -⟩
      · exact hnone
      · exact absurd (List.append_eq_nil_iff.mp hbytes.symm).1 hpiece.ne_nil
  | cons hpiece _ ih =>
      rcases hother.cases_pieces with ⟨hbytes, -⟩ | ⟨_, _, _, _, hbytes, rfl, hfirst, hrest⟩
      · exact absurd (List.append_eq_nil_iff.mp hbytes).1 hpiece.ne_nil
      · obtain ⟨rfl, rfl, rfl⟩ := hpiece.unique hfirst hbytes
        rw [ih hrest]

/-! Places between two characters. -/

theorem IsPiece.of_append {piece rest back : List UInt8} {c : Char}
    (h : IsPiece piece c (rest ++ back)) : IsPiece piece c rest := by
  rcases h with hbytes | ⟨a, hpiece, hvalue, hnone⟩
  · exact Or.inl hbytes
  · refine Or.inr ⟨a, hpiece, hvalue, fun d hd => hnone d ?_⟩
    exact hd.trans (List.prefix_append (a :: rest) back)

theorem Cut.split {bytes : List UInt8} {first later : List (List UInt8 × Char)}
    (h : Cut bytes (first ++ later)) :
    ∃ front back, bytes = front ++ back ∧ Cut front first ∧ Cut back later := by
  induction first generalizing bytes with
  | nil => exact ⟨[], bytes, rfl, .nil, h⟩
  | cons head first ih =>
      rcases h.cases_pieces with ⟨-, hnone⟩ | ⟨piece, c, rest, _, rfl, hpieces, hpiece, hrest⟩
      · cases hnone
      · obtain ⟨rfl, rfl⟩ := List.cons.inj hpieces
        obtain ⟨front, back, rfl, hfront, hback⟩ := ih hrest
        refine ⟨piece ++ front, back, by rw [List.append_assoc], ?_, hback⟩
        exact .cons hpiece.of_append hfront

/-- Between `front` and `back` no character of the bytes is cut in two. -/
structure Parts (bytes front back : List UInt8) : Prop where
  bytes_eq : bytes = front ++ back
  text_eq : decodeBytes bytes = decodeBytes front ++ decodeBytes back

/-- In front of every character there are the bytes of those before it. -/
theorem exists_parts_of_decodeBytes {bytes : List UInt8} {before after : List Char}
    (h : decodeBytes bytes = before ++ after) :
    ∃ front back, Parts bytes front back ∧ decodeBytes front = before ∧
      decodeBytes back = after := by
  obtain ⟨pieces, hpieces⟩ := exists_cut bytes
  have htext := hpieces.decodeBytes_eq
  rw [h] at htext
  obtain ⟨first, later, rfl, hbefore, hafter⟩ := List.map_eq_append_iff.mp htext.symm
  obtain ⟨front, back, hbytes, hfront, hback⟩ := hpieces.split
  have hfront' : decodeBytes front = before := hfront.decodeBytes_eq.trans hbefore
  have hback' : decodeBytes back = after := hback.decodeBytes_eq.trans hafter
  exact ⟨front, back, ⟨hbytes, by rw [h, hfront', hback']⟩, hfront', hback'⟩

/-! Bytes of ASCII. -/

theorem utf8EncodeChar_of_ascii {b : UInt8} (hascii : b < 0x80) :
    utf8EncodeChar (Char.ofNat b.toNat) = [b] := by
  have hsmall : b.toNat < 0x80 := hascii
  have hval : (Char.ofNat b.toNat).val.toNat = b.toNat := toNat_ofNat_toNat b
  simp only [utf8EncodeChar, hval]
  rw [if_pos (by omega), UInt8.ofNat_toNat]

/-- A byte of ASCII is in no sequence but its own. -/
theorem eq_of_ascii_mem {b : UInt8} {c : Char} (hascii : b < 0x80)
    (hmem : b ∈ utf8EncodeChar c) : c = Char.ofNat b.toNat := by
  have hsmall : b.toNat < 0x80 := hascii
  have hval : c.val.toNat = c.toNat := rfl
  have hmarked (n : Nat) (hleast : 0x80 ≤ n) (hmost : n < 0x100) : b ≠ UInt8.ofNat n := by
    rintro rfl
    rw [UInt8.toNat_ofNat'] at hsmall
    omega
  simp only [utf8EncodeChar, hval] at hmem
  split_ifs at hmem with hone htwo hthree <;>
    simp only [List.mem_cons, List.not_mem_nil, or_false] at hmem
  · rw [hmem, UInt8.toNat_ofNat', Nat.mod_eq_of_lt (by omega), Char.ofNat_toNat]
  · rcases hmem with h | h <;> exact absurd h (hmarked _ (by omega) (by omega))
  · rcases hmem with h | h | h <;> exact absurd h (hmarked _ (by omega) (by omega))
  · rcases hmem with h | h | h | h <;> exact absurd h (hmarked _ (by omega) (by omega))

theorem isPiece_of_ascii {b : UInt8} (hascii : b < 0x80) (rest : List UInt8) :
    IsPiece [b] (Char.ofNat b.toNat) rest :=
  Or.inl (utf8EncodeChar_of_ascii hascii).symm

/-- What stands behind a byte of ASCII plays no part in what is read in front of it. -/
theorem IsPiece.append_ascii {piece rest : List UInt8} {c : Char} {b : UInt8}
    (h : IsPiece piece c rest) (hascii : b < 0x80) (back : List UInt8) :
    IsPiece piece c (rest ++ b :: back) := by
  rcases h with hbytes | ⟨a, hpiece, hvalue, hnone⟩
  · exact Or.inl hbytes
  · refine Or.inr ⟨a, hpiece, hvalue, fun d hd => ?_⟩
    -- A sequence that reached the byte of ASCII would be that byte.
    have hreaches : b ∉ utf8EncodeChar d := by
      intro hmem
      rw [eq_of_ascii_mem hascii hmem, utf8EncodeChar_of_ascii hascii] at hd
      obtain ⟨rfl, -⟩ := List.cons_prefix_cons.mp hd
      refine hnone (Char.ofNat b.toNat) ?_
      rw [utf8EncodeChar_of_ascii hascii]
      exact List.prefix_append [b] rest
    have hwhole : a :: rest ++ [b] <+: a :: (rest ++ b :: back) := ⟨back, by simp⟩
    rcases List.prefix_or_prefix_of_prefix hd hwhole with hshort | hlong
    · rcases List.prefix_concat_iff.mp hshort with heq | hinside
      · exact hreaches (heq ▸ by simp)
      · exact hnone d hinside
    · exact hreaches (hlong.subset (by simp))

theorem Cut.append_ascii {front back : List UInt8} {b : UInt8}
    {first later : List (List UInt8 × Char)} (hfront : Cut front first) (hascii : b < 0x80)
    (hback : Cut (b :: back) later) : Cut (front ++ b :: back) (first ++ later) := by
  induction hfront with
  | nil => exact hback
  | cons hpiece _ ih =>
      rw [List.append_assoc]
      exact .cons (hpiece.append_ascii hascii back) ih

/-- A byte of ASCII is read as its character whatever stands around it. -/
theorem decodeBytes_append_ascii (front : List UInt8) {b : UInt8} (hascii : b < 0x80)
    (back : List UInt8) :
    decodeBytes (front ++ b :: back) =
      decodeBytes front ++ Char.ofNat b.toNat :: decodeBytes back := by
  obtain ⟨first, hfirst⟩ := exists_cut front
  obtain ⟨later, hlater⟩ := exists_cut back
  have hback : Cut (b :: back) (([b], Char.ofNat b.toNat) :: later) :=
    .cons (isPiece_of_ascii hascii back) hlater
  rw [(hfirst.append_ascii hascii hback).decodeBytes_eq, hfirst.decodeBytes_eq,
    hlater.decodeBytes_eq, List.map_append, List.map_cons]

theorem IsPiece.eq_of_ascii {piece rest : List UInt8} {c : Char} {b : UInt8}
    (h : IsPiece piece c rest) (hascii : b < 0x80) (hc : c = Char.ofNat b.toNat) :
    piece = [b] := by
  rcases h with rfl | ⟨a, rfl, hvalue, -⟩
  · rw [hc, utf8EncodeChar_of_ascii hascii]
  · rw [hc, toNat_ofNat_toNat] at hvalue
    rw [UInt8.toNat_inj.mp hvalue]

theorem IsPiece.char_of_ascii_mem {piece rest : List UInt8} {c : Char} {b : UInt8}
    (h : IsPiece piece c rest) (hascii : b < 0x80) (hmem : b ∈ piece) :
    c = Char.ofNat b.toNat := by
  rcases h with rfl | ⟨a, rfl, hvalue, -⟩
  · exact eq_of_ascii_mem hascii hmem
  · rw [List.mem_singleton.mp hmem, ← hvalue, Char.ofNat_toNat]

/-- A character of ASCII is read as often as its byte is there. -/
theorem count_decodeBytes_of_ascii {b : UInt8} (hascii : b < 0x80) (bytes : List UInt8) :
    (decodeBytes bytes).count (Char.ofNat b.toNat) = bytes.count b := by
  obtain ⟨pieces, hpieces⟩ := exists_cut bytes
  rw [hpieces.decodeBytes_eq]
  induction hpieces with
  | nil => rfl
  | @cons piece _ c _ hpiece _ ih =>
      have hone : [c].count (Char.ofNat b.toNat) = piece.count b := by
        by_cases hc : c = Char.ofNat b.toNat
        · rw [hpiece.eq_of_ascii hascii hc, hc, List.count_singleton_self,
            List.count_singleton_self]
        · rw [List.count_eq_zero_of_not_mem (by simpa using Ne.symm hc),
            List.count_eq_zero_of_not_mem fun hmem => hc (hpiece.char_of_ascii_mem hascii hmem)]
      rw [List.map_cons, ← List.singleton_append, List.count_append, List.count_append, ih, hone]

/-- Decoding is lossless. At every byte a piece of the bytes that follow is read, which never
reaches behind their end: a complete UTF-8 sequence, or a byte at which none starts. All bytes are
cut into such pieces in one way, none of them empty, and decoding gives the character of each piece
in turn. So UTF-8 comes back as the text it encodes, and a byte of ASCII is always read as its
character, whatever stands around it. -/
theorem decoding_is_lossless (bytes : List UInt8) :
    (∀ front a rest, bytes = front ++ a :: rest → ∃ tail back, rest = tail ++ back ∧
      (leadChar a rest).2 = tail.length ∧ IsPiece (a :: tail) (leadChar a rest).1 back) ∧
    (∃ pieces, Cut bytes pieces ∧ (∀ others, Cut bytes others → others = pieces) ∧
      (∀ piece ∈ pieces, piece.1 ≠ []) ∧ (pieces.map Prod.fst).flatten = bytes ∧
      decodeBytes bytes = pieces.map Prod.snd) ∧
    (∀ text : String, bytes = text.toUTF8.data.toList → decodeBytes bytes = text.toList) ∧
    ∀ front b back, bytes = front ++ b :: back → b < 0x80 →
      decodeBytes bytes = decodeBytes front ++ Char.ofNat b.toNat :: decodeBytes back := by
  obtain ⟨pieces, hpieces⟩ := exists_cut bytes
  refine ⟨?_, ⟨pieces, hpieces, ?_, ?_, hpieces.flatten, hpieces.decodeBytes_eq⟩, ?_, ?_⟩
  · intro _ a rest _
    exact leadChar_isPiece a rest
  · intro others hothers
    exact hpieces.unique hothers
  · exact hpieces.forall_ne_nil
  · rintro text rfl
    rw [← decodeBytes_toUTF8 text.toList, String.ofList_toList]
  · rintro front b back rfl hascii
    exact decodeBytes_append_ascii front hascii back

end PanelSkin.Text
