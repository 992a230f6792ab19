import PanelSkin.Proofs.Expr.Alike
import PanelSkin.Proofs.Skin.FontCircles
import PanelSkin.Proofs.Widget.Correspondence

/-!
Lookups that return. If they come out alike in all valid states they have answers, which can be put
together to a world of their own. In a skin all lookups return unless a font asks for itself.
-/

namespace PanelSkin

section World

variable {σ : Type}

/-- Every lookup has an outcome. -/
structure Surroundings.Returns (s : Surroundings (Run σ)) (cells : Cells) (st : σ) : Prop where
  variableText : ∀ id, (s.variableText id cells st).isSome = true
  token : ∀ t, (s.token t cells st).isSome = true
  variableValue : ∀ id, (s.variableValue id cells st).isSome = true
  translate : ∀ text, (s.translate text cells st).isSome = true
  fontMetric : ∀ id metric, (s.fontMetric id metric cells st).isSome = true
  textExtent : ∀ id text extent, (s.textExtent id text extent cells st).isSome = true
  pictureSize : ∀ path, (s.pictureSize path cells st).isSome = true
  feature : ∀ name, (s.feature name cells st).isSome = true
  font : ∀ id, (s.font id cells st).isSome = true
  picture : ∀ path width height, (s.picture path width height cells st).isSome = true
  rowToken : ∀ t row, (s.rowToken t row cells st).isSome = true

/-- Lookups that return, and that come out alike, have answers. -/
theorem Surroundings.Returns.exists_world {valid : σ → Prop} {s : Surroundings (Run σ)}
    {cells : Cells} {st : σ} (h : s.Returns cells st)
    (halike : (alike valid True).Surroundings s s) (hst : valid st) :
    ∃ world, (steadily (cells.Still valid)).Surroundings world s := by
  choose variableText hvariableText using fun id =>
    exists_steadily_of_alike (halike.variableText id) hst (h.variableText id)
  choose token htoken using fun t => exists_steadily_of_alike (halike.token t) hst (h.token t)
  choose variableValue hvariableValue using fun id =>
    exists_steadily_of_alike (halike.variableValue id) hst (h.variableValue id)
  choose translate htranslate using fun text =>
    exists_steadily_of_alike (halike.translate text) hst (h.translate text)
  choose fontMetric hfontMetric using fun id metric =>
    exists_steadily_of_alike (halike.fontMetric id metric) hst (h.fontMetric id metric)
  choose textExtent htextExtent using fun id text extent =>
    exists_steadily_of_alike (halike.textExtent id text extent) hst (h.textExtent id text extent)
  choose pictureSize hpictureSize using fun path =>
    exists_steadily_of_alike (halike.pictureSize path) hst (h.pictureSize path)
  choose feature hfeature using fun name =>
    exists_steadily_of_alike (halike.feature name) hst (h.feature name)
  choose font hfont using fun id => exists_steadily_of_alike (halike.font id) hst (h.font id)
  choose picture hpicture using fun path width height =>
    exists_steadily_of_alike (halike.picture path width height) hst (h.picture path width height)
  choose rowToken hrowToken using fun t row =>
    exists_steadily_of_alike (halike.rowToken t row) hst (h.rowToken t row)
  refine ⟨{ tokenId := s.tokenId, variableText, token, variableValue, translate, fontMetric
            textExtent, pictureSize, feature, clock := s.clock, font, picture, rowToken
            tabStop := s.tabStop, separator := s.separator }, ?_⟩
  exact
    { tokenId := rfl, variableText := hvariableText, token := htoken
      variableValue := hvariableValue, translate := htranslate, fontMetric := hfontMetric
      textExtent := htextExtent, pictureSize := hpictureSize, feature := hfeature, clock := rfl
      font := hfont, picture := hpicture, rowToken := hrowToken, tabStop := rfl, separator := rfl }

end World

/-- Where no font asks for itself all lookups return. -/
theorem Context.surroundings_returns {c : Context} (h : c.Uncircled fun _ => True) {cells : Cells}
    (hcells : cells.length = c.variableTable.size) (shelf : Shelf) :
    c.surroundings.Returns cells shelf := by
  have hflags : cells.flags.length = c.variableTable.size := (List.length_map _).trans hcells
  have hcount : cells.flags.count false ≤ c.variableTable.size := hflags ▸ List.count_le_length
  have hfonts : c.fontsNamed (fun _ => True) ≤ c.fontTable.size := Context.fontsNamed_le
  have hdepth := c.lt_depth
  have hlookups : (returning cells.flags).LookupsOn (fun _ => True) c.all c.all :=
    h.lookups_returning hflags (by omega) (by omega)
  have hreturns {α : Type} {x : Evaluation α} (hx : (returning cells.flags).rel x x) :
      (x cells shelf).isSome = true := by
    obtain ⟨a, after, shelf', -, hrun, -⟩ := hx cells shelf rfl
    rw [hrun]
    rfl
  constructor
  · exact fun id => hreturns (hlookups.variableText id trivial)
  · exact fun t => hreturns (hlookups.token t)
  · exact fun id => hreturns (hlookups.variableValue id trivial)
  · exact fun text => hreturns (hlookups.translate text)
  · exact fun id metric => hreturns (hlookups.fontMetric id metric trivial)
  · exact fun id text extent => hreturns (hlookups.textExtent id text extent trivial)
  · exact fun path => hreturns (hlookups.pictureSize path)
  · exact fun name => hreturns (hlookups.feature name)
  · exact fun id => hreturns (Context.font_returning fun _ => hlookups.all.on _)
  · intro path width height
    exact hreturns ((c.picture_quiet path width height).returning _)
  · exact fun t row => hreturns ((c.token_quiet t (some row)).returning _)

theorem Context.uncircled_of_no_conditions {c : Context}
    (h : ∀ f ∈ c.fontTable.declarations, f.condition = none) : c.Uncircled fun _ => True where
  closed _ _ _ _ := trivial
  apart id _ hloop := by
    obtain ⟨_, hasks, -⟩ := Relation.TransGen.head'_iff.mp hloop
    cases hasks with
    | ofFont hf hcondition _ =>
        rw [h _ hf] at hcondition
        cases hcondition

end PanelSkin
