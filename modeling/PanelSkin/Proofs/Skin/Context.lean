import PanelSkin.Proofs.Expr.Guard
import PanelSkin.Skin.Context

/-!
Lookups of a skin in two settings. They are related as soon as those of variables and fonts are,
and fonts are found alike where their conditions are evaluated alike.
-/

namespace PanelSkin

section Font

variable {m n : Type → Type} [Monad m] [Monad n] [LawfulMonad m] [LawfulMonad n]
  {R : Correspondence m n} {l : Lookups m} {k : Lookups n}

/-- Going on with the declaration that is the font with an id, where the conditions of those with
the id are related. -/
theorem FontTable.selectFrom_bind {α : Type} {id : String} {declarations : List FontDecl}
    (hconditions : ∀ f ∈ declarations, f.id = id → ∀ condition, f.condition = some condition →
      R.rel (condition.evaluateBool l) (condition.evaluateBool k))
    {next : Option (Nat × FontDecl) → m α} {next' : Option (Nat × FontDecl) → n α}
    (hnone : R.rel (next none) (next' none)) {index : Nat}
    (hsome : ∀ i f, declarations[i]? = some f →
      R.rel (next (some (index + i, f))) (next' (some (index + i, f)))) :
    R.rel (selectFrom l id index declarations >>= next)
      (selectFrom k id index declarations >>= next') := by
  induction declarations generalizing index with
  | nil =>
      simp only [selectFrom, pure_bind]
      exact hnone
  | cons f rest ih =>
      obtain ⟨hf, hothers⟩ := List.forall_mem_cons.mp hconditions
      have hrest : R.rel (selectFrom l id (index + 1) rest >>= next)
          (selectFrom k id (index + 1) rest >>= next') := by
        apply ih hothers
        intro i g hg
        have hlater := hsome (i + 1) g hg
        rwa [Nat.add_comm i 1, ← Nat.add_assoc] at hlater
      simp only [selectFrom]
      split
      · rename_i hid
        have hholds : R.rel (f.holds l) (f.holds k) := by
          unfold FontDecl.holds
          cases hcondition : f.condition with
          | none => exact R.rel_pure true
          | some condition => exact hf hid condition hcondition
        rw [bind_assoc, bind_assoc]
        apply R.rel_bind hholds
        intro applies
        split
        · rw [pure_bind, pure_bind]
          exact hsome 0 f rfl
        · exact hrest
      · exact hrest

end Font

namespace Context

variable (c : Context)

theorem font_related {R : Correspondence Evaluation Evaluation} {l k : Lookups Evaluation}
    {id : String}
    (hconditions : ∀ f ∈ c.fontTable.declarations, f.id = id → ∀ condition,
      f.condition = some condition →
        R.rel (condition.evaluateBool l) (condition.evaluateBool k))
    (huse : ∀ (index : Nat) f, c.fontTable.declarations[index]? = some f →
      let use : Evaluation (Option Face) :=
        .onShelf fun shelf => shelf.useFont (c.env.loadFont · c.base) index f.spec
      R.rel use use) :
    R.rel (c.font l id) (c.font k id) := by
  apply FontTable.selectFrom_bind hconditions
  · exact R.rel_pure none
  · intro index f hf
    rw [Nat.zero_add]
    exact huse index f hf

/-- Lookups are related as far as the variables and fonts are that they look up. -/
theorem lookupsWith_related {R : Correspondence Evaluation Evaluation} {names : Name → Prop}
    {valueOf valueOf' : String → Evaluation (Option Value)}
    {fontOf fontOf' : String → Evaluation (Option Face)}
    (hvalue : ∀ id, names (.variable id) → R.rel (valueOf id) (valueOf' id))
    (hfont : ∀ id, names (.font id) → R.rel (fontOf id) (fontOf' id))
    (htoken : ∀ t, R.rel (c.token t none) (c.token t none))
    (hpicture : ∀ name width height,
      R.rel (c.picture name width height) (c.picture name width height)) :
    R.LookupsOn names (c.lookupsWith valueOf fontOf) (c.lookupsWith valueOf' fontOf') where
  tokenId := rfl
  variableText id hid := R.rel_bind (hvalue id hid) fun _ => R.rel_pure _
  token := htoken
  variableValue := hvalue
  translate _ := R.rel_pure _
  fontMetric id _ hid := R.rel_bind (hfont id hid) fun _ => R.rel_pure _
  textExtent id _ _ hid := R.rel_bind (hfont id hid) fun _ => R.rel_pure _
  pictureSize name := R.rel_bind (hpicture name none none) fun _ => R.rel_pure _
  feature _ := R.rel_pure _
  clock := rfl

theorem lookups_clock (depth deeper : Nat) :
    (c.lookups depth).clock = (c.lookups deeper).clock := by
  cases depth <;> cases deeper <;> rfl

end Context

end PanelSkin
