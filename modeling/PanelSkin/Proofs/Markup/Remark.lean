import PanelSkin.Proofs.Markup.Reading

/-!
Comments and declarations. Both say nothing and end with the first occurrence of their mark. The
scanner keeps of what it has read of them only the mode, which tells how much of the mark stands at
the end; with the next character that is enough to know whether the mark is complete, also where
its characters repeat before it.
-/

namespace PanelSkin.Markup

/-- Markup that says nothing. -/
inductive Remark where
  | comment
  | declaration
  deriving DecidableEq, Repr

namespace Remark

def opener : Remark → List Char
  | .comment => ['<', '!', '-', '-']
  | .declaration => ['<', '?']

/-- The mark that ends it. -/
def ending : Remark → List Char
  | .comment => ['-', '-', '>']
  | .declaration => ['?', '>']

/-- The mode after some characters of a remark, the last of them first. -/
def mode : Remark → List Char → Mode
  | .comment, '-' :: '-' :: _ => .commentDashDash
  | .comment, '-' :: _ => .commentDash
  | .comment, _ => .comment
  | .declaration, '?' :: _ => .declarationMark
  | .declaration, _ => .declaration

variable {charset : Charset} {r : Remark}

/-- One more character of a remark, which ends with it if the mark is complete. -/
theorem advance_mode (r : Remark) (read : List Char) (line : Nat) (tags : List String) (c : Char) :
    Scanner.advance charset ⟨r.mode read, line, tags⟩ c =
      .ok { mode := if r.ending.reverse <+: c :: read then .content [] else r.mode (c :: read)
            nesting := tags
            events := [] } := by
  fun_cases mode r read with
  | case1 earlier =>
      by_cases hclose : c = '>'
      · simp [Scanner.advance, ending, hclose]
      · by_cases hdash : c = '-' <;>
          simp [Scanner.advance, ending, mode, hclose, hdash, Ne.symm hclose]
  | case2 earlier hsingle =>
      have hopen : ¬ comment.ending.reverse <+: c :: '-' :: earlier := by
        rintro ⟨tail, htail⟩
        obtain ⟨-, hrest⟩ := List.cons.inj htail
        exact hsingle tail (List.cons.inj hrest).2.symm
      rw [if_neg hopen]
      by_cases hdash : c = '-' <;> simp [Scanner.advance, mode, hdash]
  | case3 read hdouble hsingle =>
      have hopen : ¬ comment.ending.reverse <+: c :: read := by
        rintro ⟨tail, htail⟩
        exact hdouble tail (List.cons.inj htail).2.symm
      rw [if_neg hopen]
      by_cases hdash : c = '-' <;> simp [Scanner.advance, mode, hdash]
  | case4 earlier =>
      by_cases hclose : c = '>'
      · simp [Scanner.advance, ending, hclose]
      · by_cases hmark : c = '?' <;>
          simp [Scanner.advance, ending, mode, hclose, hmark, Ne.symm hclose]
  | case5 read hmark =>
      have hopen : ¬ declaration.ending.reverse <+: c :: read := by
        rintro ⟨tail, htail⟩
        exact hmark tail (List.cons.inj htail).2.symm
      rw [if_neg hopen]
      by_cases hnext : c = '?' <;> simp [Scanner.advance, mode, hnext]

open Scanner

theorem reads_opener (r : Remark) (pending : List Char) (line : Nat) (tags : List String) :
    Reads charset ⟨.content pending, line, tags⟩ r.opener (flush charset line pending)
      ⟨r.mode [], line, tags⟩ := by
  have hless : Scanner.step charset ⟨.content pending, line, tags⟩ '<' =
      .ok (⟨.afterLess, line, tags⟩, flush charset line pending) := rfl
  rw [← List.append_nil (flush charset line pending)]
  cases r with
  | comment => exact .cons hless (.silent rfl (.silent rfl (.silent rfl (.nil _))))
  | declaration => exact .cons hless (.silent rfl (.nil _))

/-- A remark goes on as long as the mark is not complete. -/
theorem reads_within (r : Remark) {read text : List Char} (line : Nat) (tags : List String)
    (hopen : ¬ r.ending <:+: read.reverse ++ text) :
    Reads charset ⟨r.mode read, line, tags⟩ text []
      ⟨r.mode (text.reverse ++ read), line + text.count '\n', tags⟩ := by
  induction text generalizing read line with
  | nil => exact .nil _
  | cons c text ih =>
      have hsame : (c :: read).reverse ++ text = read.reverse ++ c :: text := by simp
      have hgoes : ¬ r.ending.reverse <+: c :: read := by
        intro hend
        have hsuffix : r.ending <:+ (c :: read).reverse := by
          rw [← List.reverse_prefix, List.reverse_reverse]
          exact hend
        exact hopen (hsame ▸ hsuffix.isInfix.trans (List.prefix_append _ text).isInfix)
      have hstep : Scanner.step charset ⟨r.mode read, line, tags⟩ c =
          .ok (⟨r.mode (c :: read), if c = '\n' then line + 1 else line, tags⟩, []) := by
        simp only [Scanner.step, advance_mode, if_neg hgoes]
      have hrest := ih (if c = '\n' then line + 1 else line) (hsame ▸ hopen)
      rw [line_of_cons] at hrest
      rw [List.reverse_cons, List.append_assoc]
      exact .cons hstep hrest

/-- A remark ends with the first occurrence of the mark. -/
theorem reads_to_end (r : Remark) {before : List Char} (line : Nat) (tags : List String)
    (hfirst : ¬ r.ending <:+: (before ++ r.ending).dropLast) :
    Reads charset ⟨r.mode [], line, tags⟩ (before ++ r.ending) []
      ⟨.content [], line + before.count '\n', tags⟩ := by
  obtain ⟨mark, hmark, hbreaks⟩ : ∃ mark, r.ending = mark ++ ['>'] ∧ mark.count '\n' = 0 := by
    cases r with
    | comment => exact ⟨['-', '-'], rfl, rfl⟩
    | declaration => exact ⟨['?'], rfl, rfl⟩
  have htext : before ++ r.ending = (before ++ mark) ++ ['>'] := by
    rw [hmark, List.append_assoc]
  have hcomplete : r.ending.reverse <+: '>' :: ((before ++ mark).reverse ++ []) := by
    simp [hmark]
  have hline : line + before.count '\n' = line + (before ++ mark).count '\n' := by
    rw [List.count_append, hbreaks, Nat.add_zero]
  rw [htext, List.dropLast_concat] at hfirst
  rw [htext, hline]
  have hstep : Scanner.step charset
      ⟨r.mode ((before ++ mark).reverse ++ []), line + (before ++ mark).count '\n', tags⟩ '>' =
      .ok (⟨.content [], line + (before ++ mark).count '\n', tags⟩, []) := by
    simp only [Scanner.step, advance_mode, if_pos hcomplete]
    rfl
  exact (reads_within r line tags hfirst).append (.cons hstep (.nil _))

/-- Text between tags is kept up to the next opening bracket. -/
theorem reads_text {text : List Char} (htext : '<' ∉ text) (pending : List Char) (line : Nat)
    (tags : List String) :
    Reads charset ⟨.content pending, line, tags⟩ text []
      ⟨.content (text.reverse ++ pending), line + text.count '\n', tags⟩ := by
  induction text generalizing pending line with
  | nil => exact .nil _
  | cons c text ih =>
      rw [List.mem_cons, not_or] at htext
      obtain ⟨hc, hrest⟩ := htext
      have hstep : Scanner.step charset ⟨.content pending, line, tags⟩ c =
          .ok (⟨.content (c :: pending), if c = '\n' then line + 1 else line, tags⟩, []) := by
        simp [Scanner.step, Scanner.advance, Ne.symm hc]
      have hreads := ih hrest (c :: pending) (if c = '\n' then line + 1 else line)
      rw [line_of_cons] at hreads
      rw [List.reverse_cons, List.append_assoc]
      exact .silent hstep hreads

/-- `mark` stands in `text` behind `before`, and nowhere further left. -/
def FirstAt (mark before text : List Char) : Prop :=
  before ++ mark <+: text ∧ ∀ other, other ++ mark <+: text → before.length ≤ other.length

theorem FirstAt.not_earlier {mark before text : List Char} (hmark : mark ≠ [])
    (h : FirstAt mark before text) : ¬ mark <:+: (before ++ mark).dropLast := by
  rintro ⟨other, after, hother⟩
  have hearlier : other ++ mark <+: text :=
    (List.prefix_append _ after).trans (hother ▸ (List.dropLast_prefix _).trans h.1)
  have hlength := congrArg List.length hother
  have hleast := h.2 other hearlier
  have hsome := List.length_pos_iff.mpr hmark
  simp only [List.length_append, List.length_dropLast] at hlength
  omega

/-- The modes within a remark. -/
def Within : Remark → Mode → Prop
  | .comment, mode => mode = .comment ∨ mode = .commentDash ∨ mode = .commentDashDash
  | .declaration, mode => mode = .declaration ∨ mode = .declarationMark

theorem within_mode (r : Remark) (read : List Char) : r.Within (r.mode read) := by
  fun_cases mode r read <;> simp [Within]

theorem finish_mode (r : Remark) (read : List Char) (line : Nat) (tags : List String) :
    Scanner.finish charset ⟨r.mode read, line, tags⟩ = .error .unexpectedEnd := by
  fun_cases mode r read <;> rfl

theorem ending_ne_nil (r : Remark) : r.ending ≠ [] := by cases r <;> exact List.cons_ne_nil _ _

end Remark

end PanelSkin.Markup
