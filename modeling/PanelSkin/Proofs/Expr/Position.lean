import PanelSkin.Proofs.Expr.ByPlace
import PanelSkin.Proofs.Expr.Execution
import PanelSkin.Proofs.Expr.Segments

/-!
Reading by places follows reading by rests: at each step the place is the one in front of the rest.
So every place is one between two characters, reading does not break off, each expression takes a
character at least, and an error for a character tells where it stands.
-/

namespace PanelSkin.Expr

variable {m : Type → Type} [Monad m]

namespace Cursor

/-- An outcome of reading: an error that tells its place, or something read and a rest of which
`P` holds. -/
abbrev Outcome (text : String) (P : List Char → Prop) (α : Type) :=
  Except {e : ExprError // IsPlaced text e} {r : α × List Char // P r.2}

namespace Outcome

variable {text : String} {P : List Char → Prop} {α : Type}

def withRest : Outcome text P α → Except ExprError (α × List Char)
  | .ok r => .ok r.1
  | .error e => .error e.1

def withPlace : Outcome text P α → Except ExprError (α × Nat)
  | .ok r => .ok (r.1.1, place text.toList r.1.2)
  | .error e => .error e.1

/-- What is read, without what is behind it. -/
def value : Outcome text P α → Except ExprError α
  | .ok r => .ok r.1.1
  | .error e => .error e.1

/-- Goes on behind what has been read; an error stays. -/
def andThen {Q : List Char → Prop} {β : Type} (next : α → ∀ rest, P rest → m (Outcome text Q β)) :
    Outcome text P α → m (Outcome text Q β)
  | .ok r => next r.1.1 r.1.2 r.2
  | .error e => pure (.error e)

end Outcome

/-- Two readings of which neither breaks off and which have the same outcome, the one with a place
and the other with the rest behind it. -/
def Follows {α : Type} (text : String) (P : List Char → Prop) (x : Reading m (α × Nat))
    (y : Reading m (α × List Char)) : Prop :=
  ∃ z : m (Outcome text P α), x.run.run = (fun outcome => some outcome.withPlace) <$> z ∧
    y.run.run = (fun outcome => some outcome.withRest) <$> z

section Follows

variable [LawfulMonad m] {text : String} {P Q : List Char → Prop} {α β : Type}

theorem Follows.pure (a : α) {rest : List Char} (h : P rest) :
    Follows text P (pure (a, place text.toList rest) : Reading m _) (pure (a, rest)) := by
  refine ⟨Pure.pure (.ok ⟨(a, rest), h⟩), ?_, ?_⟩
  · rw [map_pure]
    rfl
  · rw [map_pure]
    rfl

theorem Follows.throw {e : ExprError} (h : IsPlaced text e) :
    Follows text P (throw e : Reading m (α × Nat)) (throw e) := by
  refine ⟨Pure.pure (.error ⟨e, h⟩), ?_, ?_⟩
  · rw [map_pure]
    rfl
  · rw [map_pure]
    rfl

omit [LawfulMonad m] in
theorem run_run_bind (x : Reading m α) (f : α → Reading m β) :
    (x >>= f).run.run = x.run.run >>= fun outcome =>
      match outcome with
      | none => Pure.pure none
      | some (.error e) => Pure.pure (some (.error e))
      | some (.ok a) => (f a).run.run := by
  rw [ExceptT.run_bind, OptionT.run_bind, Option.elimM]
  congr 1
  funext outcome
  rcases outcome with _ | _ | _ <;> rfl

theorem Follows.bind {x : Reading m (α × Nat)} {y : Reading m (α × List Char)}
    {f : α × Nat → Reading m (β × Nat)} {g : α × List Char → Reading m (β × List Char)}
    (h : Follows text P x y)
    (hfg : ∀ a rest, P rest → Follows text Q (f (a, place text.toList rest)) (g (a, rest))) :
    Follows text Q (x >>= f) (y >>= g) := by
  obtain ⟨z, hx, hy⟩ := h
  choose next hf hg using hfg
  refine ⟨z >>= Outcome.andThen next, ?_, ?_⟩
  · rw [run_run_bind, hx, bind_map_left, map_bind]
    congr 1
    funext outcome
    cases outcome with
    | ok r => exact hf r.1.1 r.1.2 r.2
    | error e =>
        dsimp only [Outcome.andThen, Outcome.withPlace]
        rw [map_pure]
  · rw [run_run_bind, hy, bind_map_left, map_bind]
    congr 1
    funext outcome
    cases outcome with
    | ok r => exact hg r.1.1 r.1.2 r.2
    | error e =>
        dsimp only [Outcome.andThen, Outcome.withRest]
        rw [map_pure]

theorem Follows.imp {x : Reading m (α × Nat)} {y : Reading m (α × List Char)}
    (h : Follows text P x y) (hPQ : ∀ rest, P rest → Q rest) : Follows text Q x y := by
  have hsame := h.bind (f := Pure.pure) (g := Pure.pure) fun a rest hrest =>
    .pure a (hPQ rest hrest)
  rwa [bind_pure, bind_pure] at hsame

theorem Follows.atPlace {r : Except ExprError (α × List Char)}
    (hok : ∀ a rest, r = .ok (a, rest) → P rest) (herror : ∀ e, r = .error e → IsPlaced text e) :
    Follows text P (atPlace text r : Reading m _) (liftM r) := by
  cases r with
  | ok read => exact .pure read.1 (hok read.1 read.2 rfl)
  | error e => exact .throw (herror e rfl)

/-- What is looked up while a text is read. -/
theorem Follows.lookup {γ : Type} (x : m γ) {f : γ → Reading m (α × Nat)}
    {g : γ → Reading m (α × List Char)} (h : ∀ c, Follows text P (f c) (g c)) :
    Follows text P (ExceptT.lift (OptionT.lift x) >>= f) (ExceptT.lift (OptionT.lift x) >>= g) := by
  have hlift {δ : Type} (k : γ → Reading m δ) :
      (ExceptT.lift (OptionT.lift x) >>= k).run.run = x >>= fun c => (k c).run.run := by
    rw [run_run_bind, ExceptT.run_lift, OptionT.run_map, OptionT.run_lift]
    simp
  choose next hf hg using h
  refine ⟨x >>= next, ?_, ?_⟩
  · rw [hlift, map_bind]
    congr 1
    funext c
    exact hf c
  · rw [hlift, map_bind]
    congr 1
    funext c
    exact hg c

theorem isPlaced_of_ne {e : ExprError}
    (h : ∀ found offset whole, e ≠ .unexpectedChar found offset whole) : IsPlaced text e :=
  fun found offset whole he => absurd he (h found offset whole)

theorem isPlaced_of_readTokens {tokenId : String → Option Nat} {s : String} {e : ExprError}
    (h : Template.readTokens tokenId s = .error e) : IsPlaced text e := by
  obtain ⟨before, behind, segments, -, -, hunreadable⟩ := Template.readTokens_eq_error_iff.mp h
  intro found offset whole he
  subst he
  cases hunreadable

theorem throw_bind {α β : Type} (e : ExprError) (f : α → Reading m β) :
    (MonadExcept.throw e >>= f : Reading m β) = MonadExcept.throw e := by
  apply ExceptT.ext
  simp

/-- What is checked apart from the text. -/
theorem Follows.checked (r : Except ExprError α) (hr : ∀ e, r = .error e → IsPlaced text e)
    (f : α → β) {rest : List Char} (h : P rest) :
    Follows text P (do return (f (← r), place text.toList rest) : Reading m _)
      (do return (f (← r), rest)) := by
  cases r with
  | ok a =>
      change Follows text P (Pure.pure a >>= _) (Pure.pure a >>= _)
      rw [pure_bind, pure_bind]
      exact .pure (f a) h
  | error e =>
      change Follows text P (MonadExcept.throw e >>= _) (MonadExcept.throw e >>= _)
      rw [throw_bind, throw_bind]
      exact .throw (hr e rfl)

theorem lift_pure_eq {γ : Type} (r : Except ExprError γ) :
    (ExceptT.mk (OptionT.lift (Pure.pure r)) : Reading m γ) = liftM r := by
  have hlift : (OptionT.lift (Pure.pure r) : OptionT m _) = Pure.pure r := by
    apply OptionT.ext
    simp
  rw [hlift]
  rfl

theorem lift_bind_eq {γ δ : Type} (x : m γ) (k : γ → m (Except ExprError δ)) :
    (ExceptT.mk (OptionT.lift (x >>= k)) : Reading m δ) =
      ExceptT.lift (OptionT.lift x) >>= fun c => ExceptT.mk (OptionT.lift (k c)) := by
  apply ExceptT.ext
  apply OptionT.ext
  rw [run_run_bind]
  simp [ExceptT.run_lift]

theorem Follows.template (lookups : Lookups m) (s : List Char) {rest : List Char} (h : P rest) :
    Follows text P ((Cursor.template lookups s).run (place text.toList rest))
      (do return (← readTemplate lookups s, rest)) := by
  rw [Cursor.template, StateT.run_lift, readTemplate, bind_assoc, bind_assoc]
  simp only [pure_bind]
  unfold Template.parse
  split
  · rw [lift_pure_eq]
    exact .checked _ (fun _ => isPlaced_of_readTokens) Expr.text h
  · rename_i id hid
    rw [lift_bind_eq, bind_assoc, bind_assoc]
    apply Follows.lookup
    intro resolved
    cases resolved with
    | some resolved =>
        dsimp only
        rw [lift_pure_eq]
        exact .checked _ (fun _ => isPlaced_of_readTokens) Expr.text h
    | none =>
        dsimp only
        rw [lift_pure_eq]
        refine .checked _ ?_ Expr.text h
        rintro e ⟨⟩
        exact isPlaced_of_ne (by simp)

end Follows

/-- A rest of `s` behind one character of it at least. -/
def Shorter (s rest : List Char) : Prop := rest <:+ s ∧ rest.length < s.length

section Rests

variable {s rest : List Char} {c : Char}

theorem Shorter.of_tail (h : rest <:+ s) : Shorter (c :: s) rest :=
  ⟨h.trans (List.suffix_cons c s), Nat.lt_succ_of_le h.length_le⟩

theorem Shorter.of_suffix {whole : List Char} (hs : s <:+ whole) (h : Shorter s rest) :
    Shorter whole rest :=
  ⟨h.1.trans hs, h.2.trans_le hs.length_le⟩

theorem trimStart_suffix (s : List Char) : Text.trimStart s <:+ s := List.dropWhile_suffix _

theorem suffix_of_readQuoted {s rest quoted : List Char}
    (h : readQuoted s = some (quoted, rest)) : rest <:+ s := by
  induction s using readQuoted.induct generalizing quoted with
  | case1 => cases h
  | case2 behind ih =>
      rw [readQuoted] at h
      obtain ⟨⟨first, after⟩, hread, hsame⟩ := Option.map_eq_some_iff.mp h
      cases hsame
      exact (ih hread).trans ((List.suffix_cons _ _).trans (List.suffix_cons _ _))
  | case3 behind =>
      simp only [readQuoted, Option.some.injEq, Prod.mk.injEq] at h
      rw [← h.2]
      exact List.suffix_cons _ _
  | case4 c behind hescape hquote ih =>
      have hother (hslash : c = '\\') : behind.head? ≠ some '\'' := by
        intro hhead
        obtain ⟨after, hbehind⟩ := List.head?_eq_some_iff.mp hhead
        exact hescape after hslash hbehind
      rw [readQuoted_cons hquote hother] at h
      obtain ⟨⟨first, after⟩, hread, hsame⟩ := Option.map_eq_some_iff.mp h
      cases hsame
      exact (ih hread).trans (List.suffix_cons _ _)

theorem shorter_readRun (inCall : Bool) (s : List Char) :
    Shorter ('{' :: s) (readRun inCall 0 ('{' :: s)).2 := by
  have hbrace : ¬ (inCall && 0 == 0 && ('{' == ',' || '{' == ')')) = true := by simp
  rw [readRun, if_neg hbrace]
  exact .of_tail ⟨_, readRun_append inCall _ s⟩

theorem shorter_of_readNumber {e : Expr} (hc : (c = '-' ∨ c = '+') ∨ c.isDigit = true)
    (h : readNumber (c :: s) = .ok (e, rest)) : Shorter (c :: s) rest := by
  obtain ⟨sign, digits, hsplit, hsign, hsuffix⟩ : ∃ sign digits, c :: s = sign ++ digits ∧
      Signs sign digits ∧ digits.dropWhile Char.isDigit <:+ s := by
    by_cases hplain : c = '-' ∨ c = '+'
    · exact ⟨[c], s, rfl, .single hplain, List.dropWhile_suffix _⟩
    · refine ⟨[], c :: s, rfl, .none (by simpa using hplain), ?_⟩
      rw [List.dropWhile_cons_of_pos (hc.resolve_left hplain)]
      exact List.dropWhile_suffix _
  rw [hsplit, readNumber_signed hsign] at h
  split at h
  · cases h
    exact .of_tail hsuffix
  · cases h

theorem isPlaced_of_readNumber {text : String} {e : ExprError} (h : readNumber s = .error e) :
    IsPlaced text e := by
  unfold readNumber at h
  dsimp only at h
  split at h
  · cases h
  · cases h
    exact isPlaced_of_ne (by simp)

theorem isPlaced_of_readReference {text : String} {e : ExprError} (hs : s <:+ text.toList)
    (h : readReference text s = .error e) : IsPlaced text e := by
  unfold readReference at h
  dsimp only at h
  split at h
  · cases h
  · cases h
    exact isPlaced_unexpectedAt ((List.dropWhile_suffix _).trans hs)

theorem suffix_of_readReference {text : String} {e : Expr}
    (h : readReference text s = .ok (e, rest)) : rest <:+ s := by
  unfold readReference at h
  dsimp only at h
  split at h
  · cases h
    exact List.dropWhile_suffix _
  · cases h

end Rests

variable [LawfulMonad m] {text : String} {s : List Char}

theorem number_follows {c : Char} {rest : List Char} (h : c :: rest <:+ text.toList)
    (hc : (c = '-' ∨ c = '+') ∨ c.isDigit = true) :
    Follows text (Shorter (c :: rest))
      ((number text : Cursor m _).run (place text.toList (c :: rest)))
      (liftM (readNumber (c :: rest))) := by
  rw [number_run h]
  exact .atPlace (fun _ _ hread => shorter_of_readNumber hc hread)
    fun _ herror => isPlaced_of_readNumber herror

theorem reference_follows (h : s <:+ text.toList) :
    Follows text (· <:+ s) ((reference text : Cursor m _).run (place text.toList s))
      (liftM (readReference text s)) := by
  rw [reference_run h]
  exact .atPlace (fun _ _ hread => suffix_of_readReference hread)
    fun _ herror => isPlaced_of_readReference h herror

theorem quoted_follows (lookups : Lookups m) (h : s <:+ text.toList) :
    Follows text (· <:+ s)
      ((quoted text (rounds text) [] >>= template lookups).run (place text.toList s))
      (match readQuoted s with
        | none => throw (.unterminatedString text)
        | some (quoted, after) => do return (← readTemplate lookups quoted, after)) := by
  rw [StateT.run_bind, quoted_run [] h (length_lt_rounds h)]
  cases hquoted : readQuoted s with
  | none =>
      dsimp only
      rw [throw_bind]
      exact .throw (isPlaced_of_ne (by simp))
  | some read =>
      obtain ⟨content, after⟩ := read
      dsimp only
      rw [pure_bind]
      exact .template lookups _ (suffix_of_readQuoted hquoted)

theorem arguments_follows {x : Cursor m (List Expr)}
    {y : List Char → Reading m (List Expr × List Char)} (h : s <:+ text.toList)
    (hxy : Follows text (Shorter (Text.trimStart s))
      (x.run (place text.toList (Text.trimStart s))) (y (Text.trimStart s))) :
    Follows text (Shorter s) ((arguments text x).run (place text.toList s))
      (match Text.trimStart s with
        | ')' :: after => pure ([], after)
        | args => y args) := by
  have htrim := trimStart_suffix s
  rw [arguments, StateT.run_bind, skipBlanks_run h, pure_bind, StateT.run_bind,
    peek_run (htrim.trans h), pure_bind]
  dsimp only
  by_cases hclose : (Text.trimStart s).head? = some ')'
  · obtain ⟨after, hafter⟩ := List.head?_eq_some_iff.mp hclose
    rw [hafter] at htrim ⊢
    rw [List.head?_cons, if_pos rfl, StateT.run_bind, advance_run_cons (htrim.trans h), pure_bind]
    exact .pure [] (.of_suffix htrim (.of_tail (List.suffix_refl after)))
  · rw [if_neg hclose]
    split
    · rename_i after hafter
      exact absurd (congrArg List.head? hafter) hclose
    · exact hxy.imp fun rest hrest => hrest.of_suffix htrim

theorem throw_run {α : Type} (e : ExprError) (offset : Nat) :
    (throw e : Cursor m α).run offset = throw e := by
  simp

omit [LawfulMonad m] in
theorem isPlaced_of_checkedCall {op : Operator} {read : List Expr} {e : ExprError}
    (h : checkedCall op read = .error e) : IsPlaced text e := by
  unfold checkedCall at h
  split at h
  · cases h
  · cases h
    exact isPlaced_of_ne (by simp)

/-- A call is read alike if its arguments are. -/
theorem call_follows {c : Char} {rest : List Char} {x : Cursor m (List Expr)}
    {y : List Char → Reading m (List Expr × List Char)} (h : c :: rest <:+ text.toList)
    (hstart : isIdentifierStart c = true)
    (hxy : ∀ inner, inner <:+ text.toList → inner.length + 2 ≤ (c :: rest).length →
      Follows text (Shorter inner) (x.run (place text.toList inner)) (y inner)) :
    Follows text (Shorter (c :: rest)) ((call text x).run (place text.toList (c :: rest)))
      (let name := (c :: rest).takeWhile isIdentifierChar
       match Text.trimStart ((c :: rest).dropWhile isIdentifierChar) with
       | '(' :: inner =>
         match Operator.ofName? (String.ofList name) with
         | none => throw (.unknownFunction (String.ofList name))
         | some op => do
           let (args, after) ←
             match Text.trimStart inner with
             | ')' :: after => pure ([], after)
             | args => y args
           return (← checkedCall op args, after)
       | after => throw (unexpectedAt text after)) := by
  have hkept : isIdentifierChar c = true := isIdentifierChar_of_isIdentifierStart hstart
  have hrest : Text.trimStart ((c :: rest).dropWhile isIdentifierChar) <:+ rest := by
    rw [List.dropWhile_cons_of_pos hkept]
    exact (trimStart_suffix _).trans (List.dropWhile_suffix _)
  have htext : rest <:+ text.toList := (List.suffix_cons c rest).trans h
  rw [call, StateT.run_bind, takeWhile_run _ h, pure_bind, StateT.run_bind,
    skipBlanks_run ((List.dropWhile_suffix _).trans h), pure_bind, StateT.run_bind,
    peek_run (hrest.trans htext), pure_bind]
  dsimp only
  generalize Text.trimStart ((c :: rest).dropWhile isIdentifierChar) = behind at hrest ⊢
  by_cases hparen : behind.head? = some '('
  · obtain ⟨inner, rfl⟩ := List.head?_eq_some_iff.mp hparen
    rw [if_pos hparen]
    cases Operator.ofName? (String.ofList ((c :: rest).takeWhile isIdentifierChar)) with
    | none =>
        dsimp only
        rw [throw_run]
        exact .throw (isPlaced_of_ne (by simp))
    | some op =>
        have hinner : inner <:+ rest := (List.suffix_cons _ inner).trans hrest
        have hlength : inner.length + 1 ≤ rest.length := hrest.length_le
        have htrim : (Text.trimStart inner).length ≤ inner.length :=
          (trimStart_suffix inner).length_le
        have hargs := arguments_follows (hinner.trans htext) (hxy (Text.trimStart inner)
          (((trimStart_suffix inner).trans hinner).trans htext) (by simp; omega))
        dsimp only
        rw [StateT.run_bind, advance_run_cons (hrest.trans htext), pure_bind, StateT.run_bind]
        have hjoin : (match Text.trimStart inner with
            | ')' :: after => (do
              let read ← pure ([], after)
              return (← checkedCall op read.1, read.2) : Reading m (Expr × List Char))
            | args => do
              let read ← y args
              return (← checkedCall op read.1, read.2)) =
            (match Text.trimStart inner with
              | ')' :: after => pure ([], after)
              | args => y args) >>= fun read => do return (← checkedCall op read.1, read.2) := by
          split <;> rfl
        have hcall (read : List Expr) (after : List Char) (hafter : Shorter inner after) :
            Follows text (Shorter (c :: rest))
              ((StateT.lift (liftM (checkedCall op read)) : Cursor m Expr).run
                (place text.toList after))
              (do return (← checkedCall op read, after)) := by
          rw [StateT.run_lift]
          exact .checked _ (fun _ => isPlaced_of_checkedCall) id (.of_tail (hafter.1.trans hinner))
        have hfollows := hargs.bind
          (f := fun read =>
            (StateT.lift (liftM (checkedCall op read.1)) : Cursor m Expr).run read.2)
          (g := fun read => do return (← checkedCall op read.1, read.2)) hcall
        rw [← hjoin] at hfollows
        exact hfollows
  · rw [if_neg hparen, unexpectedHere_run (hrest.trans htext)]
    split
    · exact absurd rfl hparen
    · exact .throw (isPlaced_unexpectedAt (hrest.trans htext))

mutual

theorem expr_follows (lookups : Lookups m) (text : String) :
    ∀ (bound other depth : Nat) (s : List Char), s <:+ text.toList → s.length < bound →
      s.length < other →
      Follows text (Shorter s) ((expr lookups text bound depth).run (place text.toList s))
        (readExpr lookups text other (0 < depth) s)
  | 0, _, _, _, _, hbound, _ => absurd hbound (Nat.not_lt_zero _)
  | _, 0, _, _, _, _, hother => absurd hother (Nat.not_lt_zero _)
  | bound + 1, other + 1, depth, s, h, hbound, hother => by
      have htrim : Text.trimStart s <:+ s := trimStart_suffix s
      rw [expr, readExpr, StateT.run_bind, skipBlanks_run h, pure_bind, StateT.run_bind,
        peek_run (htrim.trans h), pure_bind]
      cases htail : Text.trimStart s with
      | nil =>
          dsimp only [List.head?_nil]
          rw [throw_run]
          exact .throw (isPlaced_of_ne (by simp))
      | cons c rest =>
          rw [htail] at htrim
          have hfirst : c :: rest <:+ text.toList := htrim.trans h
          suffices hread : Follows text (Shorter (c :: rest)) _ _ from
            hread.imp fun _ hshorter => hshorter.of_suffix htrim
          dsimp only [List.head?_cons]
          have hrest : rest <:+ text.toList := (List.suffix_cons c rest).trans hfirst
          by_cases hquote : c = '\''
          · rw [if_pos hquote, if_pos hquote, StateT.run_bind, advance_run_cons hfirst, pure_bind]
            exact (quoted_follows lookups hrest).imp fun _ => .of_tail
          rw [if_neg hquote, if_neg hquote]
          by_cases hbrace : c = '{'
          · rw [if_pos hbrace, if_pos hbrace, StateT.run_bind, bare_run depth hfirst, pure_bind]
            subst hbrace
            exact .template lookups _ (shorter_readRun _ rest)
          rw [if_neg hbrace, if_neg hbrace]
          by_cases hsharp : c = '#'
          · rw [if_pos hsharp, if_pos hsharp, StateT.run_bind, advance_run_cons hfirst, pure_bind]
            exact (reference_follows hrest).imp fun _ => .of_tail
          rw [if_neg hsharp, if_neg hsharp]
          by_cases hnumber : c = '-' ∨ c = '+' ∨ c.isDigit = true
          · rw [if_pos hnumber, if_pos hnumber]
            exact number_follows hfirst (or_assoc.mpr hnumber)
          rw [if_neg hnumber, if_neg hnumber]
          by_cases hstart : isIdentifierStart c = true
          · rw [if_pos hstart, if_pos hstart]
            refine call_follows hfirst hstart ?_
            intro inner hinner hlength
            have hle : (c :: rest).length ≤ s.length := htrim.length_le
            exact args_follows lookups text bound other (depth + 1) inner hinner (by omega)
              (by omega) (Nat.succ_pos depth)
          · rw [if_neg hstart, if_neg hstart, unexpected_run]
            exact .throw (isPlaced_unexpectedAt hfirst)

theorem args_follows (lookups : Lookups m) (text : String) :
    ∀ (bound other depth : Nat) (s : List Char), s <:+ text.toList → s.length + 1 < bound →
      s.length + 1 < other → 0 < depth →
      Follows text (Shorter s) ((args lookups text bound depth).run (place text.toList s))
        (readArgs lookups text other s)
  | 0, _, _, _, _, hbound, _, _ => absurd hbound (Nat.not_lt_zero _)
  | _, 0, _, _, _, _, hother, _ => absurd hother (Nat.not_lt_zero _)
  | bound + 1, other + 1, depth, s, h, hbound, hother, hdepth => by
      rw [args, readArgs, StateT.run_bind]
      have hfirst := expr_follows lookups text bound other depth s h (by omega) (by omega)
      rw [decide_eq_true hdepth] at hfirst
      refine hfirst.bind fun arg after hafter => ?_
      have htail : Text.trimStart after <:+ after := trimStart_suffix after
      have htext : Text.trimStart after <:+ text.toList := htail.trans (hafter.1.trans h)
      rw [StateT.run_bind, skipBlanks_run (hafter.1.trans h), pure_bind, StateT.run_bind]
      dsimp only
      cases hbehind : Text.trimStart after with
      | nil =>
          rw [advance_run_nil (List.nil_suffix), pure_bind]
          dsimp only
          rw [throw_run]
          exact .throw (isPlaced_of_ne (by simp))
      | cons c rest =>
          rw [hbehind] at htail htext
          have hrest : Shorter s rest :=
            .of_suffix hafter.1 (.of_suffix htail (.of_tail (List.suffix_refl rest)))
          rw [advance_run_cons htext, pure_bind]
          dsimp only
          by_cases hcomma : c = ','
          · subst hcomma
            have hle : rest.length + 1 ≤ after.length := htail.length_le
            have hless : after.length < s.length := hafter.2
            have hmore := args_follows lookups text bound other depth rest (hrest.1.trans h)
              (by omega) (by omega) hdepth
            rw [if_pos rfl, StateT.run_bind]
            exact hmore.bind fun read last hlast => .pure (arg :: read) (.of_suffix hrest.1 hlast)
          rw [if_neg hcomma]
          by_cases hclose : c = ')'
          · subst hclose
            rw [if_pos rfl]
            exact .pure [arg] hrest
          -- the reader has passed the character and steps back in front of it
          have hback : place text.toList rest - c.utf8Size = place text.toList (c :: rest) := by
            rw [place_cons htext, Nat.add_sub_cancel]
          rw [if_neg hclose, StateT.run_bind, StateT.run_get, pure_bind, hback, StateT.run_bind,
            moveTo_run htext, pure_bind, unexpected_run]
          split
          · rename_i hsame
            exact absurd (List.cons.inj hsame).1 hcomma
          · rename_i hsame
            exact absurd (List.cons.inj hsame).1 hclose
          · exact .throw (isPlaced_unexpectedAt htext)

end

theorem place_self (text : List Char) : place text text = 0 := Nat.sub_self _

theorem le_place_iff {s : List Char} (h : s <:+ text.toList) :
    text.utf8ByteSize ≤ place text.toList s ↔ s = [] := by
  obtain ⟨front, htext⟩ := h
  rw [← utf8Length_toList, ← htext, place_append, utf8Length_append]
  constructor
  · intro hle
    by_contra hs
    have hpos := utf8Length_pos (List.length_pos_iff.mpr hs)
    omega
  · rintro rfl
    exact Nat.le_refl _

/-- What is read as a whole, with the end of the text behind it. -/
def readWhole (lookups : Lookups m) (text : String) : Reading m (Expr × List Char) :=
  let s := Text.trimStart text.toList
  if s.isEmpty then throw .empty
  else do
    let (e, after) ← readExpr lookups text (s.length + 1) false s
    match Text.trimStart after with
    | [] => return (e, [])
    | rest => throw (unexpectedAt text rest)

theorem whole_follows (lookups : Lookups m) (text : String) {bound : Nat}
    (hbound : text.toList.length < bound) :
    Follows text (· = []) ((whole lookups text bound).run 0) (readWhole lookups text) := by
  have htrim : Text.trimStart text.toList <:+ text.toList := trimStart_suffix text.toList
  have hskip := skipBlanks_run (m := m) (List.suffix_refl text.toList)
  rw [place_self] at hskip
  rw [whole, readWhole, StateT.run_bind, hskip, pure_bind, StateT.run_bind, StateT.run_get,
    pure_bind]
  dsimp only
  by_cases hempty : Text.trimStart text.toList = []
  · rw [if_pos ((le_place_iff htrim).mpr hempty), if_pos (List.isEmpty_iff.mpr hempty), throw_run]
    exact .throw (isPlaced_of_ne (by simp))
  rw [if_neg (mt (le_place_iff htrim).mp hempty), if_neg (mt List.isEmpty_iff.mp hempty),
    StateT.run_bind]
  have hexpr := expr_follows lookups text bound ((Text.trimStart text.toList).length + 1) 0 _ htrim
    (htrim.length_le.trans_lt hbound) (Nat.lt_succ_self _)
  refine hexpr.bind fun e after hafter => ?_
  have htext : after <:+ text.toList := hafter.1.trans htrim
  have hbehind : Text.trimStart after <:+ text.toList := (trimStart_suffix after).trans htext
  rw [StateT.run_bind, skipBlanks_run htext, pure_bind, StateT.run_bind, peek_run hbehind,
    pure_bind]
  dsimp only
  cases hrest : Text.trimStart after with
  | nil => exact .pure e rfl
  | cons c rest =>
      rw [hrest] at hbehind
      dsimp only [List.head?_cons]
      rw [unexpected_run]
      exact .throw (isPlaced_unexpectedAt hbehind)

/-- What reading comes to for one that asks for an expression only. -/
def answer (text : String) : Option (Except ExprError (Expr × List Char)) → Except ExprError Expr
  | none => .error (.unexpectedEnd text)
  | some (.error e) => .error e
  | some (.ok (e, _)) => .ok e

theorem parse_eq_readWhole (lookups : Lookups m) (text : String) :
    Expr.parse lookups text = answer text <$> (readWhole lookups text).run.run := by
  rw [Expr.parse, readWhole]
  dsimp only
  by_cases hempty : (Text.trimStart text.toList).isEmpty = true
  · rw [if_pos hempty, if_pos hempty]
    simp [answer]
  · rw [if_neg hempty, if_neg hempty, run_run_bind, map_bind]
    congr 1
    funext outcome
    rcases outcome with _ | _ | ⟨e, after⟩
    · simp [answer]
    · simp [answer]
    · dsimp only
      cases Text.trimStart after with
      | nil => simp [answer]
      | cons c rest => simp [answer]

theorem parse_follows (lookups : Lookups m) (text : String) {bound : Nat}
    (hbound : text.toList.length < bound) :
    ∃ z : m (Outcome text (· = []) Expr), Expr.parse lookups text = Outcome.value <$> z ∧
      parse lookups text bound = (fun outcome => some outcome.value) <$> z := by
  obtain ⟨z, hplace, hrest⟩ := whole_follows lookups text hbound
  refine ⟨z, ?_, ?_⟩
  · rw [parse_eq_readWhole, hrest, Functor.map_map]
    congr 1
    funext outcome
    cases outcome <;> rfl
  · rw [parse, StateT.run'_eq, ExceptT.run_map, OptionT.run_map, hplace, Functor.map_map]
    congr 1
    funext outcome
    cases outcome <;> rfl

end Cursor

variable [LawfulMonad m] {σ : Type}

/-- A reader that keeps its place as a number of bytes, and moves and cuts only at places between
two characters of the text, never breaks off, whatever the text: it answers as reading by rests
does, in as many rounds as the text has characters, and one more. From every place each expression
that it reads takes it on to another, and wherever it finds a character in the way, that character
stands at the place it tells. -/
theorem positions_are_exact (lookups : Lookups m) (E : Execution m σ) (text : String) :
    (∀ bound, text.toList.length < bound →
      Cursor.parse lookups text bound = some <$> Expr.parse lookups text) ∧
    (∀ bound depth offset s outcome s', text.toList.length < bound →
      String.Pos.Raw.IsValid text ⟨offset⟩ →
      E.run ((Cursor.expr lookups text bound depth).run offset).run.run s = some (outcome, s') →
      (∃ e, outcome = some (.error e) ∧ IsPlaced text e) ∨
        ∃ e next, outcome = some (.ok (e, next)) ∧ offset < next ∧ next ≤ text.utf8ByteSize ∧
          String.Pos.Raw.IsValid text ⟨next⟩) ∧
    ∀ found offset whole s s',
      E.run (Expr.parse lookups text) s =
        some (.error (.unexpectedChar found offset whole), s') →
      whole = text ∧ StandsAt text found offset := by
  refine ⟨?_, ?_, ?_⟩
  · intro bound hbound
    obtain ⟨z, hrest, hplace⟩ := Cursor.parse_follows lookups text hbound
    rw [hrest, hplace, Functor.map_map]
  · intro bound depth offset s outcome s' hbound hvalid hrun
    obtain ⟨rest, hbehind⟩ := isValid_iff_behind.mp hvalid
    obtain ⟨front, hfront, rfl⟩ := behind_eq_some_iff.mp hbehind
    have hsuffix : rest <:+ text.toList := ⟨front, hfront.symm⟩
    have hplace : place text.toList rest = utf8Length front := by rw [hfront, place_append]
    obtain ⟨z, hz, -⟩ := Cursor.expr_follows lookups text bound bound depth rest hsuffix
      (hsuffix.length_le.trans_lt hbound) (hsuffix.length_le.trans_lt hbound)
    rw [← hplace, hz] at hrun
    obtain ⟨reading, -, rfl⟩ := Execution.run_map_eq_some.mp hrun
    cases reading with
    | error e => exact Or.inl ⟨e.1, rfl, e.2⟩
    | ok read =>
        obtain ⟨⟨e, after⟩, hafter, hless⟩ := read
        have hbehind' := behind_place (hafter.trans hsuffix)
        refine Or.inr ⟨e, place text.toList after, rfl, ?_, ?_, ?_⟩
        · rw [← hplace]
          exact place_lt hsuffix hafter hless
        · rw [← utf8Length_toList]
          exact Nat.sub_le _ _
        · exact isValid_iff_behind.mpr ⟨after, hbehind'⟩
  · intro found offset whole s s' hrun
    obtain ⟨z, hrest, -⟩ := Cursor.parse_follows lookups text (Nat.lt_succ_self _)
    rw [hrest] at hrun
    obtain ⟨reading, -, hvalue⟩ := Execution.run_map_eq_some.mp hrun
    cases reading with
    | error e => exact e.2 found offset whole (Except.error.inj hvalue)
    | ok read => cases hvalue

/-- A character of two bytes in the way behind an argument, in front of which the reader has to
step back. -/
theorem positions_are_exact_of_step_back :
    let text := "add('é' é)"
    let e : Expr := .text ⟨[.literal "é"]⟩
    Cursor.parse emptyWorld text 11 = some <$> Expr.parse emptyWorld text ∧
      String.Pos.Raw.IsValid text ⟨4⟩ ∧
      ((Cursor.expr emptyWorld text 11 1).run 4).run.run = pure (some (.ok (e, 8))) ∧
      String.Pos.Raw.IsValid text ⟨8⟩ ∧
      Expr.parse emptyWorld text = pure (.error (.unexpectedChar 'é' 9 text)) ∧
      StandsAt text 'é' 9 := by
  intro text e
  have hargs : readArgs emptyWorld "add('é' é)" 10 "'é' é)".toList =
      throw (.unexpectedChar 'é' 9 "add('é' é)") := by
    have hquoted : readExpr emptyWorld "add('é' é)" 9 true "'é' é)".toList =
        pure (e, " é)".toList) := by
      rw [readExpr]
      rfl
    rw [readArgs, hquoted]
    rfl
  have hcall : readExpr emptyWorld "add('é' é)" 11 false "add('é' é)".toList =
      throw (.unexpectedChar 'é' 9 "add('é' é)") := by
    have hstart : Text.trimStart "add('é' é)".toList = 'a' :: "dd('é' é)".toList := rfl
    have hname : ('a' :: "dd('é' é)".toList).takeWhile isIdentifierChar = "add".toList := rfl
    have hinner : Text.trimStart (('a' :: "dd('é' é)".toList).dropWhile isIdentifierChar) =
        '(' :: "'é' é)".toList := rfl
    have hop : Operator.ofName? "add" = some .add := rfl
    rw [readExpr, hstart]
    dsimp only
    rw [if_neg (by decide), if_neg (by decide), if_neg (by decide), if_neg (by decide),
      if_pos (by decide), hname, hinner, String.ofList_toList, hop]
    change readArgs emptyWorld "add('é' é)" 10 "'é' é)".toList >>= _ = _
    rw [hargs]
    rfl
  have hparse : Expr.parse emptyWorld "add('é' é)" =
      pure (.error (.unexpectedChar 'é' 9 "add('é' é)")) := by
    have hstart : Text.trimStart "add('é' é)".toList = "add('é' é)".toList := rfl
    have hlength : "add('é' é)".toList.length = 10 := rfl
    rw [Expr.parse, hstart, hlength, if_neg (by decide), hcall]
    rfl
  have hread : ((Cursor.expr emptyWorld "add('é' é)" 11 1).run 4).run.run =
      pure (some (.ok (e, 8))) := by
    rw [Cursor.expr]
    rfl
  have hbehind : behind "add('é' é)".toList 4 = some "'é' é)".toList := rfl
  have hvalid : String.Pos.Raw.IsValid text ⟨4⟩ := isValid_iff_behind.mpr ⟨_, hbehind⟩
  obtain ⟨hsame, hexpr, herror⟩ := positions_are_exact emptyWorld Execution.immediate text
  have hnext : String.Pos.Raw.IsValid text ⟨8⟩ := by
    rcases hexpr 11 1 4 () (some (.ok (e, 8))) () (by decide) hvalid
      (congrArg (fun read => some (read, ())) hread) with ⟨cause, hcause, -⟩ | ⟨_, _, hok, -, -, h⟩
    · cases hcause
    · cases hok
      exact h
  obtain ⟨-, hstands⟩ := herror 'é' 9 text () () (congrArg (fun read => some (read, ())) hparse)
  exact ⟨hsame 11 (by decide), hvalid, hread, hnext, hparse, hstands⟩

end PanelSkin.Expr
