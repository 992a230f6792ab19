import Mathlib
import PanelSkin.Markup.Scanner

/-!
The trees that documents stand for, and the texts a tree may be written as. Writing leaves
choices: the white space inside tags, and one or two tags for an element without content. The
relation `Written` admits every choice; nothing here depends on how documents are read.
-/

namespace PanelSkin.Markup

/-- What an event says, its line aside. -/
inductive Piece where
  | start (tag : String) (attributes : Attributes)
  | finish (tag : String)
  | text (content : String)
  deriving DecidableEq, Repr

def Event.piece : Event → Piece
  | .start tag attributes _ => .start tag attributes
  | .finish tag _ => .finish tag
  | .text content _ => .text content

/-- What stands between two tags, or in a whole document: texts and elements in order. An
element has its own content inside, and `rest` follows it. -/
inductive Content where
  | empty
  | text (characters : String) (rest : Content)
  | element (tag : OpenTag) (inner rest : Content)
  deriving DecidableEq, Repr

namespace Content

/-- The tree from its first start to its last finish. -/
def pieces : Content → List Piece
  | .empty => []
  | .text characters rest => .text characters :: rest.pieces
  | .element tag inner rest =>
    .start tag.name tag.attributes :: inner.pieces ++ .finish tag.name :: rest.pieces

def startsWithText : Content → Bool
  | .text _ _ => true
  | .empty | .element _ _ _ => false

end Content

/-- Latin letters and the underscore. -/
def StartsName (c : Char) : Prop :=
  'A' ≤ c ∧ c ≤ 'Z' ∨ 'a' ≤ c ∧ c ≤ 'z' ∨ c = '_'

instance (c : Char) : Decidable (StartsName c) :=
  inferInstanceAs (Decidable (_ ∨ _ ∨ _))

/-- A letter or an underscore, then letters, underscores and digits. -/
def IsName (name : String) : Prop :=
  ∃ first rest, name.toList = first :: rest ∧ StartsName first ∧
    ∀ c ∈ rest, StartsName c ∨ '0' ≤ c ∧ c ≤ '9'

/-- Every longest run of backslashes before a quote, or at the end, has even length. -/
def Quotable (quote : Char) (value : List Char) : Prop :=
  ∀ before length after, value = before ++ List.replicate length '\\' ++ after →
    before.getLast? ≠ some '\\' → after = [] ∨ after.head? = some quote → Even length

/-- A tag as a document may have it: proper names, no attribute twice. -/
structure OpenTag.WellFormed (tag : OpenTag) : Prop where
  name : IsName tag.name
  attributeNames : ∀ entry ∈ tag.attributes.entries, IsName entry.1
  values : ∀ entry ∈ tag.attributes.entries, Quotable '"' entry.2.toList
  distinct : (tag.attributes.entries.map (·.1)).Nodup

/-- No empty text, no two texts side by side, and well formed tags throughout. -/
def Content.WellFormed : Content → Prop
  | .empty => True
  | .text characters rest =>
    characters ≠ "" ∧ rest.startsWithText = false ∧ rest.WellFormed
  | .element tag inner rest => tag.WellFormed ∧ inner.WellFormed ∧ rest.WellFormed

/-- An attribute value as it stands between quotes. -/
def escapeQuotes (quote : Char) (value : List Char) : List Char :=
  value.flatMap fun c => if c = quote then ['\\', quote] else [c]

/-- Text between tags. -/
def escapeText (text : List Char) : List Char :=
  text.flatMap fun c =>
    if c = '&' then ['&', 'a', 'm', 'p', ';']
    else if c = '<' then ['&', 'l', 't', ';']
    else [c]

/-- Spaces, tabs, carriage returns and line feeds, or nothing at all. -/
def IsGap (gap : List Char) : Prop :=
  ∀ c ∈ gap, c = ' ' ∨ c = '\t' ∨ c = '\r' ∨ c = '\n'

instance (gap : List Char) : Decidable (IsGap gap) :=
  List.decidableBAll _ gap

/-- The texts of an attribute list: a gap before every attribute, and more gaps around the
equals sign at will. -/
inductive WrittenAttributes : List (String × String) → List Char → Prop where
  | nil : WrittenAttributes [] []
  | cons {name value : String} {rest : List (String × String)} {gap before after text : List Char}
      (hgap : IsGap gap) (hsome : gap ≠ []) (hbefore : IsGap before) (hafter : IsGap after)
      (hrest : WrittenAttributes rest text) :
      WrittenAttributes ((name, value) :: rest)
        (gap ++ (name.toList ++ (before ++ '=' ::
          (after ++ '"' :: (escapeQuotes '"' value.toList ++ '"' :: text)))))

/-- The texts a tree may be written as. -/
inductive Written : Content → List Char → Prop where
  | empty : Written .empty []
  | text {characters : String} {rest : Content} {after : List Char}
      (hrest : Written rest after) :
      Written (.text characters rest) (escapeText characters.toList ++ after)
  /-- An opening tag, the content and a closing tag. -/
  | element {tag : OpenTag} {inner rest : Content}
      {attributes gap content closingGap after : List Char}
      (hattributes : WrittenAttributes tag.attributes.entries attributes) (hgap : IsGap gap)
      (hinner : Written inner content) (hclosing : IsGap closingGap)
      (hrest : Written rest after) :
      Written (.element tag inner rest)
        ('<' :: (tag.name.toList ++ (attributes ++ (gap ++ '>' :: (content ++ '<' :: '/' ::
          (tag.name.toList ++ (closingGap ++ '>' :: after)))))))
  /-- One tag for an element without content. -/
  | single {tag : OpenTag} {rest : Content} {attributes gap after : List Char}
      (hattributes : WrittenAttributes tag.attributes.entries attributes) (hgap : IsGap gap)
      (hrest : Written rest after) :
      Written (.element tag .empty rest)
        ('<' :: (tag.name.toList ++ (attributes ++ (gap ++ '/' :: '>' :: after))))

/-! Runs of backslashes can be checked from left to right. -/

/-- No run of backslashes of odd length stands before a quote or at the end, where `odd` tells
whether an odd number of them stands in front of the list. -/
def closedRuns (quote : Char) : Bool → List Char → Bool
  | odd, [] => !odd
  | odd, c :: rest =>
    if c = '\\' then closedRuns quote (!odd) rest
    else !(odd && c == quote) && closedRuns quote false rest

private theorem Quotable.tail {quote c : Char} {front rest : List Char} (hc : c ≠ '\\')
    (h : Quotable quote (front ++ c :: rest)) : Quotable quote rest := by
  intro before length after hrest hlast hafter
  apply h (front ++ c :: before) length after
  · simp [hrest]
  · cases before using List.reverseRecOn with
    | nil => simpa using hc
    | append_singleton before d =>
        rw [← List.cons_append, ← List.append_assoc, List.getLast?_append]
        simpa using hlast
  · exact hafter

private theorem closedRuns_of_quotable {quote : Char} (n : Nat) {value : List Char}
    (h : Quotable quote (List.replicate n '\\' ++ value)) :
    closedRuns quote (n % 2 == 1) value = true := by
  induction value generalizing n with
  | nil =>
      have heven : Even n := h [] n [] (by simp) (by simp) (Or.inl rfl)
      simp [closedRuns, Nat.even_iff.mp heven]
  | cons c value ih =>
      by_cases hslash : c = '\\'
      · subst hslash
        have hnext := ih (n + 1) (by simpa [List.replicate_succ'] using h)
        have hparity : ((n + 1) % 2 == 1) = !(n % 2 == 1) := by
          rcases Nat.mod_two_eq_zero_or_one n with hn | hn <;> simp [Nat.add_mod, hn]
        rw [closedRuns, if_pos rfl, ← hparity]
        exact hnext
      · have hrest : closedRuns quote false value = true := ih 0 (Quotable.tail hslash h)
        have hclosed : (n % 2 == 1 && c == quote) = false := by
          by_cases hquote : c = quote
          · have heven : Even n :=
              h [] n (c :: value) (by simp) (by simp) (Or.inr (by simp [hquote]))
            simp [Nat.even_iff.mp heven]
          · simp [hquote]
        rw [closedRuns, if_neg hslash, hclosed, hrest]
        rfl

private theorem closedRuns_replicate (quote : Char) (odd : Bool) (n : Nat) (rest : List Char) :
    closedRuns quote odd (List.replicate n '\\' ++ rest) =
      closedRuns quote (odd ^^ (n % 2 == 1)) rest := by
  induction n generalizing odd with
  | zero => simp
  | succ n ih =>
      rw [List.replicate_succ, List.cons_append, closedRuns, if_pos rfl, ih]
      rcases Nat.mod_two_eq_zero_or_one n with hn | hn <;> simp [Nat.add_mod, hn]

private theorem closedRuns_rest {quote : Char} {before rest : List Char} (odd : Bool)
    (h : closedRuns quote odd (before ++ rest) = true) (hstart : before = [] → odd = false)
    (hlast : before.getLast? ≠ some '\\') : closedRuns quote false rest = true := by
  induction before generalizing odd with
  | nil =>
      rw [hstart rfl] at h
      exact h
  | cons c before ih =>
      rw [List.cons_append, closedRuns] at h
      have hlater : before.getLast? ≠ some '\\' := by
        cases before with
        | nil => simp
        | cons d before => simpa using hlast
      by_cases hslash : c = '\\'
      · rw [if_pos hslash] at h
        refine ih (!odd) h ?_ hlater
        intro hnil
        subst hnil
        simp [hslash] at hlast
      · rw [if_neg hslash, Bool.and_eq_true] at h
        exact ih false h.2 (fun _ => rfl) hlater

theorem quotable_iff_closedRuns {quote : Char} (hquote : quote ≠ '\\') (value : List Char) :
    Quotable quote value ↔ closedRuns quote false value = true := by
  constructor
  · intro h
    exact closedRuns_of_quotable 0 h
  · intro h before length after hvalue hlast hafter
    rw [hvalue, List.append_assoc] at h
    have hrun := closedRuns_rest false h (fun _ => rfl) hlast
    rw [closedRuns_replicate, Bool.false_xor] at hrun
    rw [Nat.even_iff]
    have hclosed : (length % 2 == 1) = false := by
      rcases hafter with rfl | hhead
      · simpa [closedRuns] using hrun
      · obtain ⟨rest, rfl⟩ := List.head?_eq_some_iff.mp hhead
        rw [closedRuns, if_neg hquote, Bool.and_eq_true] at hrun
        simpa using hrun.1
    simpa using hclosed

end PanelSkin.Markup
