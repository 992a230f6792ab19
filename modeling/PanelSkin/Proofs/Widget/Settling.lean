import PanelSkin.Proofs.Expr.Guard
import PanelSkin.Proofs.Widget.Correspondence
import PanelSkin.Proofs.Widget.Moment

/-!
A tree that has just been drawn does not have to be drawn again. Drawing takes every step that is
due, and what it shows is what asking compares with. One thing could be in the way: a picture of
several frames that is not there any more keeps its frames, and they go on being due.
-/

namespace PanelSkin

variable {picture : String → Option Nat → Option Nat → Option Picture}

/-! Texts, and the steps of a scrolling text. -/

namespace TextBox

theorem lastChange_step (state : ScrollState) (scroll : LoopMode) (speed cycle : Int) (now : Nat) :
    (state.step scroll speed cycle now).lastChange = now := by
  unfold ScrollState.step
  dsimp only
  split
  · rfl
  · split
    · rfl
    · rfl

/-- Either a step has just been made, and none is due for the length of a pause, or none was
due. -/
theorem isDue_scrolled (t : TextBox) (hpause : 1 ≤ t.pause) (state : ScrollState) (cycle : Int)
    (now : Nat) : (t.scrolled state cycle now).isDue t.pause now = false := by
  unfold scrolled
  dsimp only
  split
  · simp [ScrollState.isDue, lastChange_step]
    omega
  · simp_all

theorem compose_settles (t : TextBox) (hpause : 1 ≤ t.pause) (setting : Typesetting)
    (separator : String) (state : ScrollState) (content : String) (now : Nat) :
    let composed := (t.compose setting separator state content now).1
    (composed.scrolling && composed.isDue t.pause now) = false := by
  unfold compose
  dsimp only
  split
  · simp [ScrollState.isDue]
  · split
    · simp [t.isDue_scrolled hpause]
    · rfl

/-- A text that was drawn shows what it says, and has no step due. -/
theorem draw_settles (world : Surroundings Id) (t : TextBox) (hpause : 1 ≤ t.pause) (look : Look)
    (now : Nat) :
    let drawn := (t.draw world look now).1
    1 ≤ drawn.pause ∧ drawn.needsUpdate world now = false := by
  dsimp only
  have hshown := t.state.showing_content (t.content world) now
  rw [needsUpdate_eq_false_iff]
  cases hfont : world.font t.font with
  | none =>
      rw [draw_of_missing look now hfont]
      exact ⟨hpause, hshown, rfl⟩
  | some face =>
      rw [draw_of_there look now hfont]
      refine ⟨hpause, ?_, t.compose_settles hpause _ _ _ _ now⟩
      exact (t.compose_content _ _ _ _ now).trans hshown

end TextBox

/-! Pictures, and their frames. -/

/-- Whether a picture is there depends on its path alone, and each of its frames stands for some
time. -/
structure SteadyPictures (picture : String → Option Nat → Option Nat → Option Picture) :
    Prop where
  there_by_path : ∀ path width height,
    (picture path width height).isSome = (picture path none none).isSome
  delay_pos : ∀ path width height p, picture path width height = some p →
    ∀ frame ∈ p.frames, 1 ≤ frame.delay

namespace PlayState

/-- What drawing leaves behind: a path was shown, and a picture that is not there has no frames. -/
def Fits (picture : String → Option Nat → Option Nat → Option Picture) (state : PlayState) :
    Prop :=
  ∀ path, state.path = some path →
    path.isEmpty = false ∧ (picture path none none = none → state.frameCount = 0)

theorem Fits.showing {state : PlayState} (h : state.Fits picture) {path : String}
    (hpath : path.isEmpty = false) (now : Nat) : (state.showing path now).Fits picture := by
  unfold PlayState.showing
  split
  · exact h
  · intro other hother
    obtain rfl := Option.some.inj hother
    exact ⟨hpath, fun _ => rfl⟩

/-- A frame that has just begun is not due, since it stands for some time. -/
theorem isDue_played (state : PlayState) (loop : LoopMode) {p : Picture}
    (hdelay : ∀ frame ∈ p.frames, 1 ≤ frame.delay) (now : Nat) :
    (state.played loop p now).isDue loop now = false := by
  obtain ⟨-, hcount, hstands, hframe, hlast | hidle⟩ := state.played_spec loop p now
  · by_cases hframes : (state.played loop p now).frame < p.frames.length
    · have hpos := hdelay _ (List.getElem_mem hframes)
      simp [isDue, hlast, hstands, Picture.delay, hframes]
      omega
    · have hnone : p.frameCount = 0 := by
        unfold Picture.frameCount at hframe ⊢
        omega
      simp [isDue, isPlaying, hcount, hnone]
  · exact hidle

end PlayState

/-- A picture that was drawn has no frame due. -/
theorem PictureBox.draw_settles {world : Surroundings Id} (hpictures : SteadyPictures world.picture)
    (b : PictureBox) (hfits : b.state.Fits world.picture) (look : Look) (now : Nat) :
    let drawn := (b.draw world look now).1
    drawn.state.Fits world.picture ∧ drawn.needsUpdate world now = false := by
  dsimp only
  cases hempty : String.isEmpty (b.pathNow world) with
  | true =>
      have hother : b.state.path ≠ some (b.pathNow world) := by
        intro hshown
        simp [(hfits _ hshown).1] at hempty
      rw [draw_of_empty look now hempty, needsUpdate_of_other hother, hempty]
      exact ⟨hfits, rfl⟩
  | false =>
      have hpath := b.state.showing_path (b.pathNow world) now
      have hshowing := hfits.showing hempty now
      have hthere := hpictures.there_by_path (b.pathNow world) (b.scale.request look.box).1
        (b.scale.request look.box).2
      cases hpicture : world.picture (b.pathNow world) (b.scale.request look.box).1
        (b.scale.request look.box).2 with
      | none =>
          have hgone : world.picture (b.pathNow world) none none = none := by
            simpa [hpicture] using hthere.symm
          have hframes := (hshowing _ hpath).2 hgone
          rw [draw_of_missing look now hempty hpicture, needsUpdate_of_shown hpath]
          exact ⟨hshowing, by simp [PlayState.isDue, PlayState.isPlaying, hframes]⟩
      | some p =>
          have hplayed := (b.state.showing (b.pathNow world) now).played_spec b.loop p now
          have hdue := (b.state.showing (b.pathNow world) now).isDue_played b.loop
            (hpictures.delay_pos _ _ _ _ hpicture) now
          rw [draw_of_there look now hempty hpicture, needsUpdate_of_shown (hplayed.1.trans hpath)]
          refine ⟨?_, hdue⟩
          intro path hshown
          obtain rfl : b.pathNow world = path :=
            Option.some.inj ((hplayed.1.trans hpath).symm.trans hshown)
          refine ⟨hempty, ?_⟩
          intro hgone
          simp [hpicture, hgone] at hthere

/-! Trees. -/

namespace Leaf

/-- Fit to settle: a text pauses between its steps, and a picture has no frames that are not
there. -/
def Fits (picture : String → Option Nat → Option Nat → Option Picture) : Leaf → Prop
  | .text t => 1 ≤ t.pause
  | .picture b => b.state.Fits picture
  | _ => True

theorem draw_settles {world : Surroundings Id} (hpictures : SteadyPictures world.picture)
    {leaf : Leaf} (hfits : leaf.Fits world.picture) (look : Look) (now : Nat) :
    let drawn := (leaf.draw world look now).1
    drawn.Fits world.picture ∧ drawn.needsUpdate world now = false := by
  cases leaf with
  | text t => exact t.draw_settles world hfits look now
  | picture b => exact b.draw_settles hpictures hfits look now
  | rectangle filled radius =>
      simp only [draw, bind]
      split
      · exact ⟨trivial, rfl⟩
      · exact ⟨trivial, rfl⟩
  | _ => exact ⟨trivial, rfl⟩

end Leaf

namespace Widget

/-- In the tree, and in the rows of its lists, every widget without children has one property,
and every list another of its children and rows. -/
inductive Every (leaf : Leaf → Prop) (list : List Widget → Option (List (List Widget)) → Prop) :
    Widget → Prop
  | ofLeaf {style kind} : leaf kind → Every leaf list (.leaf style kind)
  | ofBlock {style children} : (∀ child ∈ children, Every leaf list child) →
    Every leaf list (.block style children)
  | ofList {style children rows} : list children rows →
    (∀ child ∈ children, Every leaf list child) →
    (∀ row ∈ rows.getD [], ∀ child ∈ row, Every leaf list child) →
    Every leaf list (.list style children rows)

/-- Fit to settle. A list without an item, which gets no rows, has none. -/
def Fits (picture : String → Option Nat → Option Nat → Option Picture) (w : Widget) : Prop :=
  w.Every (Leaf.Fits picture) fun children rows =>
    itemHeight? children = none → rows.getD [] = []

/-- Wherever and whenever the widget is drawn, it is fit and does not have to be drawn again. -/
def Settles (picture : String → Option Nat → Option Nat → Option Picture) (w : Widget) : Prop :=
  ∀ world : Surroundings Id, world.picture = picture → ∀ container now,
    let drawn := (w.draw world container now).1
    drawn.Fits picture ∧ drawn.needsUpdate world now = false

/-- The same of all the widgets that are drawn together. -/
def AllSettle (picture : String → Option Nat → Option Nat → Option Picture)
    (drawing : Drawing Id (List Widget)) : Prop :=
  ∀ world : Surroundings Id, world.picture = picture → ∀ container now,
    let drawn := (drawing world container now).1
    (∀ child ∈ drawn, child.Fits picture) ∧ anyNeedsUpdate world now drawn = false

theorem drawAll_settles {children : List Widget}
    (hchildren : ∀ child ∈ children, child.Settles picture) :
    AllSettle picture (drawAll children) := by
  intro world hworld container now
  induction children with
  | nil => exact ⟨by simp [drawAll, pure], rfl⟩
  | cons first rest ih =>
      simp only [List.forall_mem_cons] at hchildren
      obtain ⟨hfits, hidle⟩ := hchildren.1 world hworld container now
      obtain ⟨hfits', hidle'⟩ := ih hchildren.2
      exact ⟨List.forall_mem_cons.mpr ⟨hfits, hfits'⟩, anyNeedsUpdate_cons.mpr ⟨hidle, hidle'⟩⟩

theorem drawTemplate_settles {children : List Widget}
    (hchildren : ∀ child ∈ children, child.Settles picture) :
    AllSettle picture (drawTemplate children) := by
  cases children with
  | nil => exact fun world hworld container now => ⟨by simp [drawTemplate, pure], rfl⟩
  | cons item template =>
      exact drawAll_settles fun child hchild => hchildren child (List.mem_cons_of_mem _ hchild)

theorem drawRows_settles {fresh : Drawing Id (List Widget)} (hfresh : AllSettle picture fresh)
    {rows : List (Drawing Id (List Widget))} (hrows : ∀ drawing ∈ rows, AllSettle picture drawing)
    {world : Surroundings Id} (hworld : world.picture = picture) (box : Rect) (height : Int)
    (now row count : Nat) :
    let drawn := (drawRows fresh world box height now row count rows).1
    (∀ row ∈ drawn, ∀ child ∈ row, child.Fits picture) ∧
      rowsNeedUpdateFrom world now row drawn = false := by
  induction count generalizing row rows with
  | zero => exact ⟨by simp [drawRows, pure], rfl⟩
  | succ count ih =>
      have hhead : AllSettle picture (rows.head?.getD fresh) := nextDrawing_of_forall hfresh hrows
      have htail : ∀ drawing ∈ rows.tail, AllSettle picture drawing :=
        fun drawing hdrawing => hrows drawing (List.mem_of_mem_tail hdrawing)
      obtain ⟨hfits, hidle⟩ := hhead (world.atRow row) hworld (rowBox box height row) now
      obtain ⟨hfits', hidle'⟩ := ih htail (row + 1)
      exact ⟨List.forall_mem_cons.mpr ⟨hfits, hfits'⟩,
        rowsNeedUpdateFrom_cons.mpr ⟨hidle, hidle'⟩⟩

/-- A widget that fits settles if it does so where it is visible. -/
theorem Fits.settles_of_visible {w : Widget} (h : w.Fits picture)
    (hvisible : ∀ (world : Surroundings Id) (container : Rect) (look : Look) (now : Nat),
      world.picture = picture → w.style.isVisible world.toLookups = true →
      w.style.look world.toLookups container = some look →
      let drawn := (w.draw world container now).1
      drawn.Fits picture ∧ drawn.needsUpdate world now = false) : w.Settles picture := by
  intro world hworld container now
  obtain ⟨hinvisible, hlook⟩ | ⟨hshown, look, hlook⟩ := w.style.look_spec world container
  · rw [draw_of_hidden hlook]
    exact ⟨h, needsUpdate_of_hidden hinvisible⟩
  · exact hvisible world container look now hworld hshown hlook

theorem Fits.settles (hpictures : SteadyPictures picture) {w : Widget} (h : w.Fits picture) :
    w.Settles picture := by
  induction h with
  | @ofLeaf style kind hkind =>
      apply Fits.settles_of_visible (.ofLeaf hkind)
      intro world container look now hworld hvisible hlook
      simp only [Widget.style] at hvisible hlook
      subst hworld
      obtain ⟨hfits, hidle⟩ := Leaf.draw_settles hpictures hkind look now
      rw [draw_leaf hlook]
      exact ⟨.ofLeaf hfits, (needsUpdate_leaf hvisible).trans hidle⟩
  | @ofBlock style children hchildren ih =>
      apply Fits.settles_of_visible (.ofBlock hchildren)
      intro world container look now hworld hvisible hlook
      simp only [Widget.style] at hvisible hlook
      obtain ⟨hfits, hidle⟩ := drawAll_settles ih world hworld look.box now
      rw [draw_block hlook]
      exact ⟨.ofBlock hfits, (needsUpdate_block hvisible).trans hidle⟩
  | @ofList style children rows hlist hchildren hrows ih ihRows =>
      apply Fits.settles_of_visible (.ofList hlist hchildren hrows)
      intro world container look now hworld hvisible hlook
      simp only [Widget.style] at hvisible hlook
      cases hitem : itemHeight? children with
      | none =>
          have hnone : rows.getD [] = [] := hlist hitem
          rw [draw_list_without_item hlook hitem, hnone]
          refine ⟨.ofList (fun _ => rfl) hchildren (by simp), ?_⟩
          exact needsUpdate_list hvisible
      | some height =>
          have hdrawings : ∀ drawing ∈ rowDrawings rows, AllSettle picture drawing :=
            forall_mem_rowDrawings.mpr fun row hrow => drawAll_settles (ihRows row hrow)
          obtain ⟨hfits, hidle⟩ := drawRows_settles (drawTemplate_settles ih) hdrawings hworld
            look.box (height.evaluateWord world.toLookups) now 0
            (rowCount look.box (height.evaluateWord world.toLookups))
          rw [draw_list hlook hitem]
          refine ⟨.ofList (by simp [hitem]) hchildren hfits, ?_⟩
          exact (needsUpdate_list hvisible).trans hidle

end Widget

/-! From a new tree on. -/

/-- Not drawn yet. -/
def Leaf.IsNew : Leaf → Prop
  | .text t => t.state = {}
  | .picture b => b.state = {}
  | _ => True

/-- A scrolling text stands still for some time between its steps. -/
def Leaf.Pauses : Leaf → Prop
  | .text t => 1 ≤ t.pause
  | _ => True

namespace Widget

/-- Not drawn yet, so that no list has rows. -/
def IsNew (w : Widget) : Prop := w.Every Leaf.IsNew fun _ rows => rows = none

def Pauses (w : Widget) : Prop := w.Every Leaf.Pauses fun _ _ => True

theorem IsNew.fits {w : Widget} (hnew : w.IsNew) (hpauses : w.Pauses)
    (picture : String → Option Nat → Option Nat → Option Picture) : w.Fits picture := by
  induction hnew with
  | @ofLeaf style kind hkind =>
      obtain ⟨hpause⟩ := hpauses
      apply Every.ofLeaf
      cases kind with
      | text t => exact hpause
      | picture b =>
          have hstate : b.state = {} := hkind
          intro path hpath
          simp [hstate] at hpath
      | _ => trivial
  | ofBlock _ ih =>
      cases hpauses with
      | ofBlock hchildren =>
          exact .ofBlock fun child hchild => ih child hchild (hchildren child hchild)
  | ofList hrows _ _ ih =>
      subst hrows
      cases hpauses with
      | ofList _ hchildren _ =>
          have hrest := fun child hchild => ih child hchild (hchildren child hchild)
          exact .ofList (fun _ => rfl) hrest (by simp)

/-- The tree after some drawings, each in a container and at a time. -/
def drawnThrough {m : Type → Type} [Monad m] (s : Surroundings m) (w : Widget) :
    List (Rect × Nat) → m Widget
  | [] => pure w
  | (container, now) :: later => do
    let (w, _) ← w.draw s container now
    drawnThrough s w later

theorem drawnThrough_fits {world : Surroundings Id} (hpictures : SteadyPictures world.picture)
    {w : Widget} (hfits : w.Fits world.picture) (history : List (Rect × Nat)) :
    (w.drawnThrough world history).Fits world.picture := by
  induction history generalizing w with
  | nil => exact hfits
  | cons drawing later ih =>
      obtain ⟨container, now⟩ := drawing
      exact ih (hfits.settles hpictures world rfl container now).1

theorem drawnThrough_related {m n : Type → Type} [Monad m] [Monad n] [LawfulMonad m]
    [LawfulMonad n] {R : Correspondence m n} {s : Surroundings m} {r : Surroundings n}
    (h : R.Surroundings s r) (w : Widget) (history : List (Rect × Nat)) :
    R.rel (w.drawnThrough s history) (w.drawnThrough r history) := by
  induction history generalizing w with
  | nil => exact R.rel_pure w
  | cons drawing later ih =>
      obtain ⟨container, now⟩ := drawing
      apply R.rel_bind (Correspondence.draw_related w s r h container now)
      exact fun drawn => ih drawn.1

/-- In surroundings that always answer the same, a tree does not have to be drawn again at the
time at which it was drawn last, however it was drawn before. -/
theorem needsUpdate_after_draw {σ : Type} {valid : Cells → σ → Prop} {world : Surroundings Id}
    {s : Surroundings (Run σ)} (hworld : (steadily valid).Surroundings world s)
    (hpictures : SteadyPictures world.picture) {w : Widget} (hnew : w.IsNew) (hpauses : w.Pauses)
    (history : List (Rect × Nat)) (container : Rect) (now : Nat) {cells : Cells} {st : σ}
    (hvalid : valid cells st) :
    ∃ after st', (do
      let before ← w.drawnThrough s history
      let (drawn, _) ← before.draw s container now
      drawn.needsUpdate s now) cells st = some ((false, after), st') := by
  have hfits := drawnThrough_fits hpictures (hnew.fits hpauses world.picture) history
  have hidle := (hfits.settles hpictures world rfl container now).2
  have hrelated := (steadily valid).rel_bind (drawnThrough_related hworld w history)
    fun before => (steadily valid).rel_bind
      (Correspondence.draw_related before world s hworld container now)
      fun drawn => Correspondence.needsUpdate_related drawn.1 now hworld
  obtain ⟨after, st', -, hrun⟩ := hrelated cells st hvalid
  refine ⟨after, st', ?_⟩
  rw [← hidle]
  exact hrun

/-- One font, in which every character is six pixels wide, and one picture of two frames. -/
def gallery : Surroundings Id where
  toLookups := emptyWorld
  font id := if id = "f" then some ⟨6, 8, 7, 0, 8, fun _ => 6, fun _ => none⟩ else none
  picture path _ _ := if path = "p" then some ⟨1, 1, [⟨#[], 100⟩, ⟨#[], 50⟩]⟩ else none
  rowToken _ row := .number (Int64.ofNat row)

/-- A text that scrolls, a picture that plays, and a list with a text in each row. -/
def marquee : Widget :=
  .block {} [
    .leaf {} (.text { font := "f", text := ⟨[.literal "now playing"]⟩, scroll := .always }),
    .leaf {} (.picture { path := ⟨[.literal "p"]⟩ }),
    .list {} [.leaf {} (.item (.number 8)),
      .leaf {} (.text { font := "f", text := ⟨[.token { name := "title", id := 0 }]⟩ })] none]

theorem needsUpdate_after_draw_marquee :
    (steadily fun _ _ => True).Surroundings gallery (.fixed gallery : Surroundings (Run Unit)) ∧
      SteadyPictures gallery.picture ∧ marquee.IsNew ∧ marquee.Pauses ∧
      ∃ after st', (do
        let before ← marquee.drawnThrough (.fixed gallery)
          [(⟨0, 0, 29, 15⟩, 0), (⟨0, 0, 29, 15⟩, 100)]
        let (drawn, _) ← before.draw (.fixed gallery) ⟨0, 0, 29, 15⟩ 200
        drawn.needsUpdate (.fixed gallery) 200 : Run Unit Bool) [] () =
          some ((false, after), st') := by
  have hworld : (steadily fun _ _ => True).Surroundings gallery
      (.fixed gallery : Surroundings (Run Unit)) := .fixed gallery
  have hpictures : SteadyPictures gallery.picture := by
    constructor
    · intro path width height
      rfl
    · intro path width height p hp frame hframe
      by_cases hpath : path = "p"
      · simp [gallery, hpath] at hp
        subst hp
        simp at hframe
        obtain rfl | rfl := hframe
        · simp
        · simp
      · simp [gallery, hpath] at hp
  have hnew : marquee.IsNew := by
    apply Every.ofBlock
    simp only [List.forall_mem_cons]
    refine ⟨.ofLeaf rfl, .ofLeaf rfl, .ofList rfl ?_ (by simp), by simp⟩
    simp only [List.forall_mem_cons]
    exact ⟨.ofLeaf trivial, .ofLeaf rfl, by simp⟩
  have hpauses : marquee.Pauses := by
    apply Every.ofBlock
    simp only [List.forall_mem_cons]
    refine ⟨.ofLeaf (show 1 ≤ 100 by omega), .ofLeaf trivial, .ofList trivial ?_ (by simp), by simp⟩
    simp only [List.forall_mem_cons]
    exact ⟨.ofLeaf trivial, .ofLeaf (show 1 ≤ 100 by omega), by simp⟩
  exact ⟨hworld, hpictures, hnew, hpauses,
    needsUpdate_after_draw hworld hpictures hnew hpauses _ _ _ trivial⟩

end Widget

end PanelSkin
