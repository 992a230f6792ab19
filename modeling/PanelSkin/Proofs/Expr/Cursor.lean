import Mathlib
import PanelSkin.Expr.Parser

/-!
Places in a text by the number of bytes in front of them. A reader that keeps such a number, and
cuts the text where it points, has to keep it between two characters: elsewhere there is no text to
be had. Here are the steps of such a reader. Each checks the place it moves to, and in front of what
is left of a text each does what is done with the rest itself.
-/

namespace PanelSkin.Expr

/-- What is left of a text behind its first bytes; nothing if these end within a character, or if
there are not so many. -/
def behind : List Char → Nat → Option (List Char)
  | s, 0 => some s
  | [], _ + 1 => none
  | c :: rest, offset + 1 =>
    if c.utf8Size ≤ offset + 1 then behind rest (offset + 1 - c.utf8Size) else none

/-- The part of a text between two places. -/
def between (text : List Char) (start stop : Nat) : Option (List Char) := do
  let rest ← behind text start
  let after ← behind text stop
  if start ≤ stop then some (rest.take (rest.length - after.length)) else none

/-- The place in front of the rest of a text. -/
def place (text rest : List Char) : Nat := utf8Length text - utf8Length rest

/-- A character that starts at a place in a text. -/
def StandsAt (text : String) (found : Char) (offset : Nat) : Prop :=
  String.Pos.Raw.IsValid text ⟨offset⟩ ∧ String.Pos.Raw.get? text ⟨offset⟩ = some found

theorem utf8Length_cons (c : Char) (s : List Char) :
    utf8Length (c :: s) = c.utf8Size + utf8Length s := rfl

theorem utf8Length_append (s rest : List Char) :
    utf8Length (s ++ rest) = utf8Length s + utf8Length rest := by
  induction s with
  | nil => exact (Nat.zero_add _).symm
  | cons c s ih => rw [List.cons_append, utf8Length_cons, ih, utf8Length_cons, Nat.add_assoc]

theorem utf8Length_eq_utf8Len (s : List Char) : utf8Length s = String.utf8Len s := by
  induction s with
  | nil => rfl
  | cons c s ih => rw [utf8Length_cons, ih, String.utf8Len_cons, Nat.add_comm]

theorem utf8Length_toList (text : String) : utf8Length text.toList = text.utf8ByteSize := by
  rw [utf8Length_eq_utf8Len, ← String.utf8ByteSize_ofList, String.ofList_toList]

theorem behind_append (front rest : List Char) :
    behind (front ++ rest) (utf8Length front) = some rest := by
  induction front with
  | nil => cases rest <;> rfl
  | cons c front ih =>
      have hsize : 0 < c.utf8Size := c.utf8Size_pos
      obtain ⟨offset, hoffset⟩ : ∃ offset, c.utf8Size + utf8Length front = offset + 1 :=
        ⟨c.utf8Size + utf8Length front - 1, by omega⟩
      rw [List.cons_append, utf8Length_cons, hoffset, behind, if_pos (by omega),
        show offset + 1 - c.utf8Size = utf8Length front by omega]
      exact ih

theorem behind_eq_some_iff {text rest : List Char} {offset : Nat} :
    behind text offset = some rest ↔ ∃ front, text = front ++ rest ∧ utf8Length front = offset := by
  constructor
  · intro h
    induction text generalizing offset with
    | nil =>
        cases offset with
        | zero => exact ⟨[], by simpa [behind] using h, rfl⟩
        | succ offset => cases h
    | cons c text ih =>
        cases offset with
        | zero => exact ⟨[], by simpa [behind] using h, rfl⟩
        | succ offset =>
            rw [behind] at h
            split at h
            · obtain ⟨front, rfl, hfront⟩ := ih h
              exact ⟨c :: front, rfl, by rw [utf8Length_cons]; omega⟩
            · cases h
  · rintro ⟨front, rfl, rfl⟩
    exact behind_append front rest

/-- There is a rest of a text exactly behind the places between its characters. -/
theorem isValid_iff_behind {text : String} {offset : Nat} :
    String.Pos.Raw.IsValid text ⟨offset⟩ ↔ ∃ rest, behind text.toList offset = some rest := by
  simp only [behind_eq_some_iff]
  rw [String.Pos.Raw.isValid_iff_exists_append]
  constructor
  · rintro ⟨front, rest, rfl, hoffset⟩
    refine ⟨rest.toList, front.toList, String.toList_append, ?_⟩
    rw [utf8Length_toList]
    exact (congrArg String.Pos.Raw.byteIdx hoffset).symm
  · rintro ⟨rest, front, htext, rfl⟩
    refine ⟨String.ofList front, String.ofList rest, ?_, ?_⟩
    · rw [← String.ofList_append, ← htext, String.ofList_toList]
    · rw [utf8Length_eq_utf8Len, ← String.utf8ByteSize_ofList]
      rfl

theorem standsAt_of_behind {text : String} {found : Char} {offset : Nat} {after : List Char}
    (h : behind text.toList offset = some (found :: after)) : StandsAt text found offset := by
  refine ⟨isValid_iff_behind.mpr ⟨_, h⟩, ?_⟩
  obtain ⟨front, htext, rfl⟩ := behind_eq_some_iff.mp h
  rw [← String.ofList_toList (s := text), htext, utf8Length_eq_utf8Len]
  exact String.get?_of_valid front (found :: after)

section Places

variable {text s rest : List Char} {c : Char}

theorem place_append (front rest : List Char) : place (front ++ rest) rest = utf8Length front := by
  rw [place, utf8Length_append, Nat.add_sub_cancel]

theorem behind_place (h : s <:+ text) : behind text (place text s) = some s := by
  obtain ⟨front, rfl⟩ := h
  rw [place_append]
  exact behind_append front s

theorem place_cons (h : c :: s <:+ text) : place text s = place text (c :: s) + c.utf8Size := by
  obtain ⟨front, rfl⟩ := h
  rw [place_append, show front ++ c :: s = (front ++ [c]) ++ s by simp, place_append,
    utf8Length_append]
  rfl

theorem utf8Length_pos {s : List Char} (h : 0 < s.length) : 0 < utf8Length s := by
  obtain ⟨c, s, rfl⟩ := List.exists_cons_of_length_pos h
  rw [utf8Length_cons]
  exact Nat.add_pos_left c.utf8Size_pos _

/-- Further on in a text the places are greater. -/
theorem place_lt (hs : s <:+ text) (hrest : rest <:+ s) (hless : rest.length < s.length) :
    place text s < place text rest := by
  obtain ⟨front, rfl⟩ := hs
  obtain ⟨passed, rfl⟩ := hrest
  have hpassed : 0 < utf8Length passed := utf8Length_pos (by simpa using hless)
  rw [place_append, ← List.append_assoc, place_append, utf8Length_append]
  omega

theorem place_le (hs : s <:+ text) (hrest : rest <:+ s) : place text s ≤ place text rest := by
  obtain ⟨front, rfl⟩ := hs
  obtain ⟨passed, rfl⟩ := hrest
  rw [place_append, ← List.append_assoc, place_append, utf8Length_append]
  omega

theorem between_places {passed : List Char} (h : passed ++ rest <:+ text) :
    between text (place text (passed ++ rest)) (place text rest) = some passed := by
  have hrest : rest <:+ passed ++ rest := List.suffix_append passed rest
  have hle : place text (passed ++ rest) ≤ place text rest := place_le h hrest
  rw [between, behind_place h, behind_place (hrest.trans h)]
  simp [hle]

end Places

/-- The error for a character that is found at the start of what is left of a text tells the place
where it stands. -/
def IsPlaced (text : String) (e : ExprError) : Prop :=
  ∀ found offset whole, e = .unexpectedChar found offset whole →
    whole = text ∧ StandsAt text found offset

theorem isPlaced_unexpectedAt {text : String} {rest : List Char} (h : rest <:+ text.toList) :
    IsPlaced text (unexpectedAt text rest) := by
  intro found offset whole he
  cases rest with
  | nil => cases he
  | cons c rest =>
      cases he
      exact ⟨rfl, standsAt_of_behind (behind_place h)⟩

variable {m : Type → Type} [Monad m]

/-- Reading that keeps a place in the text. It breaks off if the bound on its rounds is reached, and
if the text is to be cut at what is no place between two characters. -/
abbrev Cursor (m : Type → Type) := StateT Nat (Reading m)

namespace Cursor

def breakOff {α : Type} : Cursor m α := StateT.lift (ExceptT.mk OptionT.fail)

def cut {α : Type} : Option α → Cursor m α
  | some a => pure a
  | none => breakOff

/-- Goes to another place, which has to be one. -/
def moveTo (text : String) (offset : Nat) : Cursor m Unit := do
  let _ ← cut (behind text.toList offset)
  set offset

/-- The character at the place, if the text does not end there. -/
def peek (text : String) : Cursor m (Option Char) := do
  return (← cut (behind text.toList (← get))).head?

/-- Goes on behind the character at the place. -/
def advance (text : String) : Cursor m (Option Char) := do
  match ← peek text with
  | none => return none
  | some c =>
    moveTo text ((← get) + c.utf8Size)
    return some c

def unexpected {α : Type} (text : String) (found : Char) : Cursor m α := do
  throw (.unexpectedChar found (← get) text)

/-- An error for the character at the place, or for the end of the text. -/
def unexpectedHere {α : Type} (text : String) : Cursor m α := do
  match ← peek text with
  | none => throw (.unexpectedEnd text)
  | some c => unexpected text c

/-- Goes on as long as the characters are of one kind, round by round. -/
def passWhile (text : String) (p : Char → Bool) : Nat → Cursor m Unit
  | 0 => breakOff
  | bound + 1 => do
    match ← peek text with
    | none => return ()
    | some c =>
      if p c then
        let _ ← advance text
        passWhile text p bound
      else return ()

/-- A number of rounds that no loop over the characters of a text needs. -/
def rounds (text : String) : Nat := text.toList.length + 1

def skipBlanks (text : String) : Cursor m Unit := passWhile text Text.isBlank (rounds text)

/-- The text from a place on, up to the one reached. -/
def passed (text : String) (start : Nat) : Cursor m (List Char) := do
  cut (between text.toList start (← get))

def takeWhile (text : String) (p : Char → Bool) : Cursor m (List Char) := do
  let start ← get
  passWhile text p (rounds text)
  passed text start

/-! In front of what is left of the text, each step does what is done with the rest. -/

section Steps

variable [LawfulMonad m] {text : String} {s rest : List Char}

theorem peek_run (h : s <:+ text.toList) :
    (peek text : Cursor m _).run (place text.toList s) = pure (s.head?, place text.toList s) := by
  simp [peek, behind_place h, cut]

theorem moveTo_run (h : s <:+ text.toList) (offset : Nat) :
    (moveTo text (place text.toList s) : Cursor m _).run offset =
      pure ((), place text.toList s) := by
  simp [moveTo, behind_place h, cut]

/-- There is no going to what is no place between two characters. -/
theorem moveTo_run_of_not_isValid {offset : Nat} (h : ¬ String.Pos.Raw.IsValid text ⟨offset⟩)
    (start : Nat) :
    (moveTo text offset : Cursor m _).run start = ExceptT.mk OptionT.fail := by
  have hnone : behind text.toList offset = none := by
    rw [Option.eq_none_iff_forall_ne_some]
    exact fun rest hrest => h (isValid_iff_behind.mpr ⟨rest, hrest⟩)
  apply ExceptT.ext
  apply OptionT.ext
  simp [moveTo, hnone, cut, breakOff, OptionT.fail]

theorem advance_run_nil (h : [] <:+ text.toList) :
    (advance text : Cursor m _).run (place text.toList []) =
      pure (none, place text.toList []) := by
  simp [advance, peek_run h]

theorem advance_run_cons {c : Char} (h : c :: rest <:+ text.toList) :
    (advance text : Cursor m _).run (place text.toList (c :: rest)) =
      pure (some c, place text.toList rest) := by
  have hrest : rest <:+ text.toList := (List.suffix_cons c rest).trans h
  simp [advance, peek_run h, ← place_cons h, moveTo_run hrest]

theorem passWhile_run (p : Char → Bool) {bound : Nat} (h : s <:+ text.toList)
    (hbound : s.length < bound) :
    (passWhile text p bound : Cursor m _).run (place text.toList s) =
      pure ((), place text.toList (s.dropWhile p)) := by
  induction bound generalizing s with
  | zero => exact absurd hbound (Nat.not_lt_zero _)
  | succ bound ih =>
      rw [passWhile, StateT.run_bind, peek_run h, pure_bind]
      cases s with
      | nil => rfl
      | cons c rest =>
          have hrest : rest <:+ text.toList := (List.suffix_cons c rest).trans h
          dsimp only [List.head?_cons]
          by_cases hc : p c = true
          · rw [if_pos hc, StateT.run_bind, advance_run_cons h, pure_bind,
              List.dropWhile_cons_of_pos hc]
            exact ih hrest (Nat.lt_of_succ_lt_succ hbound)
          · rw [if_neg hc, List.dropWhile_cons_of_neg hc]
            rfl

theorem length_lt_rounds (h : s <:+ text.toList) : s.length < rounds text :=
  Nat.lt_succ_of_le h.length_le

theorem skipBlanks_run (h : s <:+ text.toList) :
    (skipBlanks text : Cursor m _).run (place text.toList s) =
      pure ((), place text.toList (Text.trimStart s)) :=
  passWhile_run _ h (length_lt_rounds h)

theorem passed_run {front : List Char} (h : front ++ rest <:+ text.toList) :
    (passed text (place text.toList (front ++ rest)) : Cursor m _).run (place text.toList rest) =
      pure (front, place text.toList rest) := by
  simp [passed, between_places h, cut]

theorem takeWhile_run (p : Char → Bool) (h : s <:+ text.toList) :
    (takeWhile text p : Cursor m _).run (place text.toList s) =
      pure (s.takeWhile p, place text.toList (s.dropWhile p)) := by
  have hsplit : s.takeWhile p ++ s.dropWhile p = s := List.takeWhile_append_dropWhile
  have hpassed : (passed text (place text.toList (s.takeWhile p ++ s.dropWhile p)) :
      Cursor m _).run (place text.toList (s.dropWhile p)) =
        pure (s.takeWhile p, place text.toList (s.dropWhile p)) :=
    passed_run (hsplit.symm ▸ h)
  rw [hsplit] at hpassed
  simp [takeWhile, passWhile_run p h (length_lt_rounds h), hpassed]

theorem unexpected_run {α : Type} {c : Char} :
    (unexpected text c : Cursor m α).run (place text.toList (c :: rest)) =
      throw (unexpectedAt text (c :: rest)) := by
  simp [unexpected, unexpectedAt, place]

theorem unexpectedHere_run {α : Type} (h : s <:+ text.toList) :
    (unexpectedHere text : Cursor m α).run (place text.toList s) =
      throw (unexpectedAt text s) := by
  rw [unexpectedHere, StateT.run_bind, peek_run h, pure_bind]
  cases s with
  | nil => simp [unexpectedAt]
  | cons c rest => exact unexpected_run

end Steps

end Cursor

end PanelSkin.Expr
