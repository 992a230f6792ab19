import PanelSkin.Proofs.Skin.Events

/-!
Which files include which. The graph of files is there before anything is read: how deep its
paths go decides whether reading can end in the error that files include each other too deep, and
a file that is read to its end is on no circle and leads to none.
-/

namespace PanelSkin

open Markup (Event Attributes Accepts ParseError)

namespace Environment

variable {env : Environment}

/-- Some include element in file `s` names file `t`. -/
def Includes (env : Environment) (s t : Source) : Prop :=
  ∃ bytes attributes line file, env.skinFile s.path = .ok bytes ∧
    .start "include" attributes line ∈ (env.scan bytes).events ∧
    attributes.get? "path" = some file ∧ t = s.included file

/-- The files that file `s` includes, itself or through others, nest at most `depth` deep. -/
def NestsWithin (env : Environment) : Nat → Source → Prop
  | 0, s => ∀ t, ¬ env.Includes s t
  | depth + 1, s => ∀ t, env.Includes s t → env.NestsWithin depth t

theorem NestsWithin.not_cyclic {depth : Nat} {s : Source} (h : env.NestsWithin depth s) :
    ¬ Relation.TransGen env.Includes s s := by
  intro hcycle
  induction depth generalizing s with
  | zero =>
      obtain ⟨t, hst, -⟩ := Relation.TransGen.head'_iff.mp hcycle
      exact h t hst
  | succ depth ih =>
      obtain ⟨t, hst, hts⟩ := Relation.TransGen.head'_iff.mp hcycle
      exact ih (h t hst) (Relation.TransGen.tail' hts hst)

theorem NestsWithin.reached {depth : Nat} {s t : Source} (h : env.NestsWithin depth s)
    (hst : Relation.ReflTransGen env.Includes s t) : ∃ rest, env.NestsWithin rest t := by
  induction hst using Relation.ReflTransGen.head_induction_on generalizing depth with
  | refl => exact ⟨depth, h⟩
  | head hfirst _ ih =>
      cases depth with
      | zero => exact absurd hfirst (h _)
      | succ depth => exact ih (h _ hfirst)

end Environment

/-- The innermost reason of an error is that includes nest more than `limit` deep. -/
inductive TooDeep (limit : Nat) : ParseError LoadError → Prop where
  | here (line : Nat) (path : FilePath) : TooDeep limit (.refused line (.includeDepth path limit))
  | inside (line : Nat) (path : FilePath) {cause : ParseError LoadError}
      (hcause : TooDeep limit cause) : TooDeep limit (.refused line (.inInclude path cause))

theorem not_tooDeep_of_isPlain {limit line : Nat} {cause : LoadError} (h : cause.IsPlain) :
    ¬ TooDeep limit (.refused line cause) := by
  intro hdeep
  cases hdeep with
  | here => exact h
  | inside => exact h

namespace Loading

variable {l : Loading}

/-- A file whose includes do not nest too deep is not refused because they do. -/
theorem not_tooDeep_of_nestsWithin {depth limit : Nat} {s : Source} {d d' : Draft}
    {cause : ParseError LoadError} (hnests : l.env.NestsWithin depth s)
    (h : Markup.parseFile l.env.skinFile l.env.host.charset (l.receive depth s.directory) s.path d =
      (d', some cause)) : ¬ TooDeep limit cause := by
  induction depth using Nat.strong_induction_on generalizing s d d' cause with
  | _ depth ih =>
      intro hdeep
      unfold Markup.parseFile at h
      cases hfile : l.env.skinFile s.path with
      | error other =>
          simp only [hfile] at h
          cases h
          cases hdeep
      | ok bytes =>
          simp only [hfile] at h
          rcases Markup.Scan.deliver_eq_some h with ⟨line, reason, rfl⟩ |
            ⟨event, hmem, before, reason, hrefused, rfl⟩
          · cases hdeep
          cases hinclude : event.include? with
          | none =>
              rw [receive_of_plain hinclude] at hrefused
              cases hrun : (l.handle (depth != l.options.includeDepth) event).run before with
              | ok outcome =>
                  rw [hrun] at hrefused
                  cases hrefused
              | error plain =>
                  rw [hrun] at hrefused
                  cases hrefused
                  exact not_tooDeep_of_isPlain (handle_isPlain hrun) hdeep
          | some attributes =>
              obtain ⟨line, rfl⟩ := Markup.Event.include?_eq_some_iff.mp hinclude
              cases hpath : attributes.get? "path" with
              | none =>
                  rw [receive_include_without_path hpath] at hrefused
                  cases hrefused
                  cases hdeep
              | some file =>
                  have hincludes : l.env.Includes s (s.included file) :=
                    ⟨bytes, attributes, line, file, hfile, hmem, hpath, rfl⟩
                  cases depth with
                  | zero => exact hnests _ hincludes
                  | succ inner =>
                      rw [receive_include hpath] at hrefused
                      split at hrefused
                      · cases hrefused
                      · rename_i reached inside hparse
                        cases hrefused
                        cases hdeep with
                        | inside _ _ hinside =>
                            exact ih inner (Nat.lt_succ_self inner) (hnests _ hincludes) hparse
                              hinside

/-- The includes of a file that is read to its end nest as deep as they may, or less. -/
theorem ReadsFile.nestsWithin {depth : Nat} {s : Source} {d d' : Draft}
    (h : l.ReadsFile depth s d d') : l.env.NestsWithin depth s := by
  induction depth generalizing s d d' with
  | zero =>
      rintro t ⟨bytes, attributes, line, file, hfile, hmem, hpath, rfl⟩
      obtain ⟨others, hothers, -, haccepts⟩ := h
      obtain rfl := Except.ok.inj (hfile.symm.trans hothers)
      obtain ⟨before, after, htaken⟩ := haccepts.exists_of_mem hmem
      rw [receive_include_too_deep hpath] at htaken
      cases htaken
  | succ inner ih =>
      rintro t ⟨bytes, attributes, line, file, hfile, hmem, hpath, rfl⟩
      obtain ⟨others, hothers, -, haccepts⟩ := h
      obtain rfl := Except.ok.inj (hfile.symm.trans hothers)
      obtain ⟨before, after, htaken⟩ := haccepts.exists_of_mem hmem
      obtain ⟨named, depth, hnamed, hdepth, hreads⟩ := receive_include_eq_ok.mp htaken
      obtain rfl := Option.some.inj (hpath.symm.trans hnamed)
      obtain rfl := Nat.succ.inj hdepth
      exact ih hreads

end Loading

end PanelSkin
