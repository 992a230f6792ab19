import PanelSkin.Proofs.Expr.Alike
import PanelSkin.Proofs.Expr.Parsing
import PanelSkin.Proofs.Picture.Transparency
import PanelSkin.Proofs.Skin.Context
import PanelSkin.Proofs.Skin.Events
import PanelSkin.Proofs.Widget.Correspondence

/-!
What a skin has on its shelf makes no difference to what is looked up. The pictures and fonts there
are those that would be loaded now. Loading a skin leads to such a shelf, and every lookup keeps it
so and answers as any other such shelf would make it answer.
-/

namespace PanelSkin

/-- A shelf of what loading gives: the pictures in a directory, and the fonts declared. -/
@[mk_iff]
structure Shelf.Faithful (env : Environment) (base : FilePath) (fonts : FontTable)
    (shelf : Shelf) : Prop where
  directory : shelf.pictures.base = base
  pictures : PictureCache.Faithful env.resampler env.loadPicture shelf.pictures
  fonts : ∀ (index : Nat) face, shelf.fontSlots[index]? = some (some face) →
    ∃ f, fonts.declarations[index]? = some f ∧ face = (env.loadFont f.spec base).toOption

namespace FontSlots

variable {load : FontSpec → Except FontError Face} {slots : FontSlots} {index : Nat}

theorem use_of_filled {face : Option Face} (h : slots[index]? = some (some face))
    (spec : FontSpec) : slots.use load index spec = ⟨face, false, slots⟩ := by
  simp [use, h]

theorem use_of_unused (h : slots[index]?.getD none = none) (spec : FontSpec) :
    slots.use load index spec =
      ⟨(load spec).toOption, true, slots.set index (some (load spec).toOption)⟩ := by
  simp [use, h]

end FontSlots

namespace Shelf.Faithful

variable {env : Environment} {base : FilePath} {fonts : FontTable} {shelf : Shelf}

/-- The journal does not matter. -/
theorem note (h : shelf.Faithful env base fonts) (access : Access) :
    (shelf.note access).Faithful env base fonts where
  directory := h.directory
  pictures := h.pictures
  fonts := h.fonts

theorem fetch (h : shelf.Faithful env base fonts)
    (halike : PictureCache.LoadsAlike env.loadPicture) (name : String)
    (width height : Option Nat) :
    let fetched := shelf.fetch env.loadPicture env.resampler name width height
    fetched.1 = PictureCache.uncached env.resampler env.loadPicture (base.join ⟨name⟩) width
      height ∧ fetched.2.Faithful env base fonts := by
  have houtcome := PictureCache.fetch_outcome env.resampler env.loadPicture shelf.pictures name
    width height
  have hanswer := houtcome.answer h.pictures halike
  simp only [PictureCache.keyOf, PictureCache.resolve, h.directory] at hanswer
  have hcached : Faithful env base fonts { shelf with
      pictures := (shelf.pictures.fetch env.loadPicture name width height env.resampler).cache } :=
    ⟨houtcome.base.trans h.directory, houtcome.faithful h.pictures, h.fonts⟩
  refine ⟨hanswer, ?_⟩
  dsimp only [Shelf.fetch]
  cases (shelf.pictures.fetch env.loadPicture name width height env.resampler).loaded with
  | none => exact hcached
  | some path => exact hcached.note _

theorem useFont (h : shelf.Faithful env base fonts) {index : Nat} {f : FontDecl}
    (hf : fonts.declarations[index]? = some f) :
    let used := shelf.useFont (env.loadFont · base) index f.spec
    used.1 = (env.loadFont f.spec base).toOption ∧ used.2.Faithful env base fonts := by
  unfold Shelf.useFont
  cases hslot : shelf.fontSlots[index]?.getD none with
  | some face =>
      have hfilled : shelf.fontSlots[index]? = some (some face) := by
        cases hget : shelf.fontSlots[index]? with
        | none => simp [hget] at hslot
        | some slot => simpa [hget] using hslot
      obtain ⟨g, hg, hface⟩ := h.fonts index face hfilled
      cases hf.symm.trans hg
      rw [FontSlots.use_of_filled hfilled]
      exact ⟨hface, h⟩
  | none =>
      rw [FontSlots.use_of_unused hslot]
      have hslots : Faithful env base fonts { shelf with
          fontSlots := shelf.fontSlots.set index (some (env.loadFont f.spec base).toOption) } := by
        refine ⟨h.directory, h.pictures, ?_⟩
        intro other face hface
        by_cases hother : index = other
        · subst hother
          refine ⟨f, hf, ?_⟩
          rw [List.getElem?_set_self'] at hface
          obtain ⟨slot, -, hslot⟩ := Option.map_eq_some_iff.mp hface
          exact (Option.some.inj hslot).symm
        · rw [List.getElem?_set_ne hother] at hface
          exact h.fonts other face hface
      exact ⟨rfl, hslots.note (.font f.spec)⟩

/-- One more font has not been used yet. -/
theorem declareFont (h : shelf.Faithful env base fonts) (f : FontDecl) :
    Faithful env base (fonts.push f) { shelf with fontSlots := shelf.fontSlots ++ [none] } where
  directory := h.directory
  pictures := h.pictures
  fonts index face hface := by
    rw [List.getElem?_append] at hface
    split at hface
    · obtain ⟨g, hg, hloaded⟩ := h.fonts index face hface
      refine ⟨g, ?_, hloaded⟩
      exact (List.getElem?_append_left (List.getElem?_eq_some_iff.mp hg).1).trans hg
    · simp [List.getElem?_singleton] at hface

end Shelf.Faithful

namespace Context

variable (c : Context) {steady : Prop}

/-- The shelf holds what the context would have loaded. -/
def Stocked (shelf : Shelf) : Prop := shelf.Faithful c.env c.base c.fontTable

theorem onShelf_alike {α : Type} {f : Shelf → α × Shelf} {a : α}
    (h : ∀ shelf, c.Stocked shelf → (f shelf).1 = a ∧ c.Stocked (f shelf).2) :
    (alike c.Stocked steady).rel (Evaluation.onShelf f) (Evaluation.onShelf f) := by
  intro cells st st' hst hst'
  obtain ⟨hvalue, hshelf⟩ := h st hst
  obtain ⟨hvalue', hshelf'⟩ := h st' hst'
  refine .inr ⟨a, cells, _, _, hshelf, hshelf', fun _ => rfl, ?_, ?_⟩
  · rw [← hvalue]
    rfl
  · rw [← hvalue']
    rfl

theorem token_alike (t : Token) (row : Option Nat) :
    (alike c.Stocked steady).rel (c.token t row) (c.token t row) :=
  c.onShelf_alike fun _ hshelf => ⟨rfl, hshelf.note _⟩

theorem picture_alike (halike : PictureCache.LoadsAlike c.env.loadPicture) (name : String)
    (width height : Option Nat) :
    (alike c.Stocked steady).rel (c.picture name width height) (c.picture name width height) :=
  c.onShelf_alike fun _ hshelf => hshelf.fetch halike name width height

theorem font_alike {l : Lookups Evaluation} (h : (alike c.Stocked steady).Lookups l l)
    (id : String) : (alike c.Stocked steady).rel (c.font l id) (c.font l id) := by
  apply c.font_related
  · exact fun _ _ _ condition _ => h.evaluateBool condition
  · exact fun _ _ hf => c.onShelf_alike fun _ hshelf => hshelf.useFont hf

theorem lookups_alike (halike : PictureCache.LoadsAlike c.env.loadPicture)
    (hpolicy : steady → ∀ v ∈ c.variableTable.declarations, v.policy = .always) (depth : Nat) :
    (alike c.Stocked steady).Lookups (c.lookups depth) (c.lookups depth) := by
  induction depth with
  | zero =>
      exact (c.lookupsWith_related (fun _ _ => exhausted_alike) (fun _ _ => exhausted_alike)
        (fun t => c.token_alike t none) (c.picture_alike halike)).all
  | succ depth ih =>
      exact (c.lookupsWith_related (fun id _ => c.variableTable.value_alike hpolicy ih id)
        (fun id _ => c.font_alike ih id) (fun t => c.token_alike t none)
        (c.picture_alike halike)).all

/-- Whatever is looked up while a skin is drawn, a faithful shelf makes no difference to it. -/
theorem surroundings_alike (halike : PictureCache.LoadsAlike c.env.loadPicture)
    (hpolicy : steady → ∀ v ∈ c.variableTable.declarations, v.policy = .always) :
    (alike c.Stocked steady).Surroundings c.surroundings c.surroundings where
  toLookups := c.lookups_alike halike hpolicy c.depth
  font := c.font_alike (c.lookups_alike halike hpolicy c.depth)
  picture := c.picture_alike halike
  rowToken t row := c.token_alike t (some row)
  tabStop := rfl
  separator := rfl

end Context

/-! The shelf of a skin that was loaded. -/

namespace Loading

variable {l : Loading} {α : Type}

/-- What a draft has on its shelf is what would be loaded now. -/
def Stocked (l : Loading) (d : Draft) : Prop := (l.context d).Stocked d.shelf

theorem blank_stocked : l.Stocked l.blank where
  directory := rfl
  pictures := PictureCache.Faithful.nothing rfl rfl
  fonts index face h := by simp [blank] at h

theorem evaluate_stocked {action : Lookups Evaluation → Evaluation (Except ExprError α)}
    {d d' : Draft} {a : α} (hd : l.Stocked d)
    (haction : (alike (l.context d).Stocked False).rel (action (l.context d).all)
      (action (l.context d).all))
    (hrun : (l.evaluate action).run d = .ok (a, d')) : l.Stocked d' := by
  unfold evaluate StateT.run at hrun
  simp only at hrun
  rcases haction d.cells d.shelf d.shelf hd hd with
    ⟨hnone, -⟩ | ⟨outcome, after, shelf, -, hshelf, -, -, haction, -⟩
  · rw [hnone] at hrun
    cases hrun
  · rw [haction] at hrun
    cases outcome with
    | error cause => cases hrun
    | ok a =>
        cases hrun
        exact hshelf

theorem made_stocked (halike : PictureCache.LoadsAlike l.env.loadPicture) {r : Reading α}
    (h : r.Made l) {d d' : Draft} {a : α} (hd : l.Stocked d) (hrun : r.run d = .ok (a, d')) :
    l.Stocked d' := by
  induction h generalizing d d' with
  | pure a =>
      cases hrun
      exact hd
  | throw hplain => cases hrun
  | bind _ _ ihr ihf =>
      obtain ⟨b, between, hfirst, hsecond⟩ := Reading.bind_run_eq_ok.mp hrun
      exact ihf b (ihr hd hfirst) hsecond
  | readExpr text =>
      -- variables may keep their values, so the cells can change; the shelf does not mind
      have hlookups := (l.context d).lookups_alike halike False.elim (l.context d).depth
      exact evaluate_stocked hd (hlookups.parse text) hrun
  | readTemplate text =>
      have hlookups := (l.context d).lookups_alike halike False.elim (l.context d).depth
      exact evaluate_stocked hd (hlookups.parseTemplate text) hrun
  | declareVariable v =>
      cases hrun
      exact hd
  | declareFont f =>
      cases hrun
      exact hd.declareFont f
  | header header =>
      cases hrun
      exact hd

theorem addText_stocked {d : Draft} (hd : l.Stocked d) (content : String) :
    l.Stocked (d.addText content) := by
  unfold Draft.addText
  split
  · exact hd
  · exact hd
  · exact hd

theorem attach_stocked {d d' : Draft} {w : Widget} (hd : l.Stocked d)
    (h : d.attach w = .ok d') : l.Stocked d' := by
  unfold Draft.attach at h
  split at h
  · cases hadopt : Draft.adopt w _ with
    | error cause =>
        rw [hadopt] at h
        cases h
    | ok parent =>
        rw [hadopt] at h
        cases h
        exact hd
  · split_ifs at h
    split at h
    · cases h
      exact hd
    · cases h

/-- The shelf stays in order from one event to the next. -/
theorem handle_stocked (halike : PictureCache.LoadsAlike l.env.loadPicture) {included : Bool}
    {event : Markup.Event} {d d' : Draft} (hd : l.Stocked d)
    (h : (l.handle included event).run d = .ok ((), d')) : l.Stocked d' := by
  cases event with
  | text content line =>
      cases h
      exact addText_stocked hd content
  | start tag attributes line =>
      cases started_of_start h with
      | declared htag hrun => exact made_stocked halike (l.declare_made _) hd hrun
      | display id htag hid hheader hnone => exact hd
      | widget hdisplay htag hrun =>
          have hread := made_stocked halike (Element.widget_made l _) hd hrun
          exact hread
  | finish tag line =>
      cases finished_of_finish h with
      | nothing htag => exact hd
      | display htag =>
          unfold Draft.finishDisplay
          split
          · exact hd
          · exact hd
      | @widget w finished outer between d' htag hopened hcompleted hattach =>
          have htaken : l.Stocked { d with opened := outer, text := "" } := hd
          have hbetween := made_stocked halike (l.completed_made _ w) htaken hcompleted
          exact attach_stocked hbetween hattach

theorem ReadsBytes.stocked (halike : PictureCache.LoadsAlike l.env.loadPicture) {depth : Nat}
    {directory : FilePath} {bytes : List UInt8} {d d' : Draft}
    (h : l.ReadsBytes depth directory bytes d d') (hd : l.Stocked d) : l.Stocked d' :=
  h.invariant (P := l.Stocked) (fun _ _ _ _ _ hbefore hrun => handle_stocked halike hbefore hrun) hd

end Loading

namespace Skin

/-- What a skin has on its shelf is what would be loaded now. -/
def Stocked (s : Skin) (env : Environment) : Prop := (s.context env).Stocked s.shelf

theorem ofDraft_stocked {l : Loading} {d : Draft} {s : Skin} (hd : l.Stocked d)
    (h : ofDraft l d = .ok s) : s.Stocked l.env := by
  unfold ofDraft at h
  split at h
  · cases h
  · cases h
    exact hd

variable {env : Environment} {options : LoadOptions} {s : Skin}

theorem stocked_of_loaded (halike : PictureCache.LoadsAlike env.loadPicture)
    (h : (∃ path, Skin.load env options path = .ok s) ∨
      ∃ base bytes, Skin.loadBytes env options base bytes = .ok s) : s.Stocked env := by
  rcases h with ⟨path, hload⟩ | ⟨base, bytes, hload⟩
  · obtain ⟨d, ⟨bytes, -, hreads⟩, hskin⟩ := load_eq_ok_iff.mp hload
    exact ofDraft_stocked (hreads.stocked halike Loading.blank_stocked) hskin
  · obtain ⟨d, hreads, hskin⟩ := loadBytes_eq_ok_iff.mp hload
    exact ofDraft_stocked (hreads.stocked halike Loading.blank_stocked) hskin

end Skin

end PanelSkin
