import PanelSkin.Proofs.Widget.Settling

/-!
What a tree that does not have to be drawn again would draw. Asking looks at what texts say, at
which pictures are shown, and at the steps that are due. Where everything else reads as it did at
the last drawing, a tree that does not ask to be drawn again would draw the same. Of a change in
anything else asking takes no notice.
-/

namespace PanelSkin

variable {before after : Surroundings Id}

namespace TextBox

theorem scrolled_scrolling (t : TextBox) (state : ScrollState) (cycle : Int) (now : Nat) :
    (t.scrolled state cycle now).scrolling = true := by
  unfold scrolled ScrollState.step
  dsimp only
  split
  · split
    · rfl
    · split
      · rfl
      · rfl
  · rfl

theorem scrolled_of_idle (t : TextBox) {state : ScrollState} (hscrolling : state.scrolling = true)
    {now : Nat} (hidle : state.isDue t.pause now = false) (cycle : Int) :
    t.scrolled state cycle now = state := by
  have hsame : { state with scrolling := true } = state := by rw [← hscrolling]
  unfold scrolled
  dsimp only
  rw [hsame, if_neg (ne_true_of_eq_false hidle)]

/-- A text is composed as before if no step is due. -/
theorem compose_again (t : TextBox) (setting : Typesetting) (separator : String)
    (state : ScrollState) (content : String) {earlier now : Nat}
    (hidle : let composed := (t.compose setting separator state content earlier).1
      (composed.scrolling && composed.isDue t.pause now) = false) :
    let composed := t.compose setting separator state content earlier
    t.compose setting separator composed.1 content now = composed := by
  dsimp only at hidle ⊢
  unfold compose at hidle ⊢
  dsimp only at hidle ⊢
  split
  · rfl
  · split
    · rename_i hwraps hscrolls
      have hscrolling := t.scrolled_scrolling state (cycle setting.face content separator) earlier
      simp only [hwraps, hscrolls, hscrolling, Bool.false_eq_true, Bool.true_and, if_true,
        if_false] at hidle
      rw [t.scrolled_of_idle hscrolling hidle]
    · rfl

/-- A text that does not have to be drawn again draws the same, if its font, the tab stops and
the separator are the same. -/
theorem draw_again (t : TextBox) (look : Look) {earlier now : Nat}
    (hfont : before.font t.font = after.font t.font) (htabs : before.tabStop = after.tabStop)
    (hseparator : before.separator = after.separator)
    (hidle : (t.draw before look earlier).1.needsUpdate after now = false) :
    (t.draw before look earlier).1.draw after look now = t.draw before look earlier := by
  rw [needsUpdate_eq_false_iff] at hidle
  obtain ⟨hcontent, hdue⟩ := hidle
  cases hface : before.font t.font with
  | none =>
      let drawn : TextBox := { t with state := (t.state.showing (t.content before) earlier).atRest }
      have hdrawn : t.draw before look earlier = (drawn, []) := draw_of_missing look earlier hface
      have hagain : drawn.draw after look now = _ :=
        draw_of_missing look now (hfont.symm.trans hface)
      rw [hdrawn] at hcontent ⊢
      rw [hagain, ScrollState.showing_of_shown hcontent]
      rfl
  | some face =>
      let composed := t.compose (setting before look face) before.separator
        (t.state.showing (t.content before) earlier) (t.content before) earlier
      let drawn : TextBox := { t with state := composed.1 }
      have hdrawn : t.draw before look earlier = (drawn, look.backdrop ++ composed.2.map .text) :=
        draw_of_there look earlier hface
      have hagain : drawn.draw after look now = _ :=
        draw_of_there look now (hfont.symm.trans hface)
      have hshown : composed.1.content = some (t.content before) :=
        (t.compose_content _ _ _ _ earlier).trans (t.state.showing_content _ earlier)
      rw [hdrawn] at hcontent hdue ⊢
      have hsame : drawn.content after = t.content before :=
        Option.some.inj (hcontent.symm.trans hshown)
      have hsetting : setting after look face = setting before look face := by
        simp only [setting, htabs]
      have hcomposed := t.compose_again (setting before look face) before.separator
        (t.state.showing (t.content before) earlier) (t.content before) hdue
      rw [hagain, ScrollState.showing_of_shown hcontent, hsame, hsetting, ← hseparator]
      change (({ t with state := (t.compose _ _ composed.1 _ now).1 } : TextBox),
        look.backdrop ++ (t.compose _ _ composed.1 _ now).2.map .text) = _
      rw [hcomposed]

end TextBox

/-- A picture plays no further while its frame stands. -/
theorem PlayState.played_again (state : PlayState) (loop : LoopMode) (p : Picture)
    {earlier now : Nat} (hidle : (state.played loop p earlier).isDue loop now = false) :
    (state.played loop p earlier).played loop p now = state.played loop p earlier := by
  obtain ⟨-, hcount, hstands, hframe, -⟩ := state.played_spec loop p earlier
  generalize state.played loop p earlier = shown at *
  have hframes : shown.ofFrames p.frameCount = shown := by
    unfold ofFrames
    rw [← hcount]
    congr 1
    split
    · rfl
    · omega
  unfold isDue at hidle
  unfold played
  dsimp only
  rw [hframes, ← hstands, if_neg (ne_true_of_eq_false hidle), ← hstands]

namespace PictureBox

/-- A picture that does not have to be drawn again draws the same, if it is still the same picture
at its path, and the path did not become empty or cease to be. -/
theorem draw_again (b : PictureBox) (look : Look) {earlier now : Nat}
    (hempty : String.isEmpty (b.pathNow before) = String.isEmpty (b.pathNow after))
    (hpicture : before.picture (b.pathNow after) (b.scale.request look.box).1
        (b.scale.request look.box).2 =
      after.picture (b.pathNow after) (b.scale.request look.box).1 (b.scale.request look.box).2)
    (hidle : (b.draw before look earlier).1.needsUpdate after now = false) :
    (b.draw before look earlier).1.draw after look now = b.draw before look earlier := by
  cases hpath : String.isEmpty (b.pathNow before) with
  | true =>
      rw [draw_of_empty look earlier hpath]
      exact draw_of_empty look now (hempty.symm.trans hpath)
  | false =>
      have hpath' : String.isEmpty (b.pathNow after) = false := hempty.symm.trans hpath
      have hshown := b.state.showing_path (b.pathNow before) earlier
      -- Whatever was drawn, the path was shown and has stayed, or another would ask to be drawn.
      have hsame (state : PlayState) (hstate : state.path = some (b.pathNow before))
          (hidle : ({ b with state } : PictureBox).needsUpdate after now = false) :
          b.pathNow after = b.pathNow before ∧ state.isDue b.loop now = false := by
        by_cases hstill : state.path = some (b.pathNow after)
        · rw [needsUpdate_of_shown hstill] at hidle
          exact ⟨Option.some.inj (hstill.symm.trans hstate), hidle⟩
        · have hasks : ({ b with state } : PictureBox).needsUpdate after now = !false :=
            (needsUpdate_of_other hstill).trans (congrArg not hpath')
          cases hasks.symm.trans hidle
      cases hfound : before.picture (b.pathNow before) (b.scale.request look.box).1
        (b.scale.request look.box).2 with
      | none =>
          let drawn : PictureBox := { b with state := b.state.showing (b.pathNow before) earlier }
          have hdrawn : b.draw before look earlier = (drawn, []) :=
            draw_of_missing look earlier hpath hfound
          rw [hdrawn] at hidle ⊢
          obtain ⟨hstill, -⟩ := hsame drawn.state hshown hidle
          have hmissing : after.picture (drawn.pathNow after) (drawn.scale.request look.box).1
              (drawn.scale.request look.box).2 = none :=
            hpicture.symm.trans (hstill ▸ hfound)
          have hshows : drawn.state.path = some (drawn.pathNow after) :=
            hshown.trans (congrArg some hstill.symm)
          have hagain := draw_of_missing (b := drawn) look now hpath' hmissing
          rw [PlayState.showing_of_shown hshows] at hagain
          exact hagain
      | some p =>
          let state := (b.state.showing (b.pathNow before) earlier).played b.loop p earlier
          let drawn : PictureBox := { b with state }
          have hdrawn : b.draw before look earlier = (drawn,
              [.picture look.box.x1 look.box.y1 p state.frame look.box]) :=
            draw_of_there look earlier hpath hfound
          have hplayed : state.path = some (b.pathNow before) :=
            ((b.state.showing _ earlier).played_spec b.loop p earlier).1.trans hshown
          rw [hdrawn] at hidle ⊢
          obtain ⟨hstill, hdue⟩ := hsame state hplayed hidle
          have hthere : after.picture (drawn.pathNow after) (drawn.scale.request look.box).1
              (drawn.scale.request look.box).2 = some p :=
            hpicture.symm.trans (hstill ▸ hfound)
          have hshows : drawn.state.path = some (drawn.pathNow after) :=
            hplayed.trans (congrArg some hstill.symm)
          have hagain := draw_of_there (b := drawn) look now hpath' hthere
          rw [PlayState.showing_of_shown hshows, PlayState.played_again _ _ _ hdue] at hagain
          exact hagain

end PictureBox

namespace Leaf

/-- All that asking takes no notice of reads the same: for a text what it is set with, for a
picture whether there is a path and what is found at it, and for any other widget everything. -/
def ReadsSame (before after : Surroundings Id) (look : Look) : Leaf → Prop
  | .text t => before.font t.font = after.font t.font ∧ before.tabStop = after.tabStop ∧
    before.separator = after.separator
  | .picture b => String.isEmpty (b.pathNow before) = String.isEmpty (b.pathNow after) ∧
    before.picture (b.pathNow after) (b.scale.request look.box).1 (b.scale.request look.box).2 =
      after.picture (b.pathNow after) (b.scale.request look.box).1 (b.scale.request look.box).2
  | leaf => ∀ now, leaf.draw before look now = leaf.draw after look now

theorem draw_again (leaf : Leaf) (look : Look) {earlier now : Nat}
    (hsame : (leaf.draw before look earlier).1.ReadsSame before after look)
    (hidle : (leaf.draw before look earlier).1.needsUpdate after now = false) :
    (leaf.draw before look earlier).1.draw after look now = leaf.draw before look earlier := by
  cases leaf with
  | text t =>
      rw [draw_text] at hsame hidle ⊢
      have hfont : before.font (t.draw before look earlier).1.font =
        after.font (t.draw before look earlier).1.font := hsame.1
      rw [t.draw_font] at hfont
      rw [draw_text, t.draw_again look hfont hsame.2.1 hsame.2.2 hidle]
  | picture b =>
      rw [draw_picture] at hsame hidle ⊢
      have hpath (world : Surroundings Id) :
          (b.draw before look earlier).1.pathNow world = b.pathNow world := by
        unfold PictureBox.pathNow
        rw [(b.draw_path_scale look earlier).1]
      have hempty : String.isEmpty ((b.draw before look earlier).1.pathNow before) =
        String.isEmpty ((b.draw before look earlier).1.pathNow after) := hsame.1
      rw [hpath, hpath] at hempty
      have hpicture := hsame.2
      rw [hpath, (b.draw_path_scale look earlier).2] at hpicture
      rw [draw_picture, b.draw_again look hempty hpicture hidle]
  | rectangle filled radius =>
      have hkept (world : Surroundings Id) (time : Nat) :
          ((Leaf.rectangle filled radius).draw world look time).1 = .rectangle filled radius := by
        simp only [draw, bind]
        split
        · rfl
        · rfl
      rw [hkept] at hsame ⊢
      exact (hsame now).symm
  | _ => exact (hsame now).symm

end Leaf

namespace Widget

/-- In all that shows of the tree, everything that asking takes no notice of reads the same: the
looks, what leaves read apart from their contents, and the height of the rows of a list. -/
inductive ReadsSame : Surroundings Id → Surroundings Id → Rect → Widget → Prop
  | ofHidden {before after : Surroundings Id} {container w} :
    w.style.look before.toLookups container = (none : Option Look) →
    w.style.look after.toLookups container = (none : Option Look) →
    ReadsSame before after container w
  | ofLeaf {before after container style kind} {look : Look} :
    style.look before.toLookups container = some look →
    style.look after.toLookups container = some look → kind.ReadsSame before after look →
    ReadsSame before after container (.leaf style kind)
  | ofBlock {before after container style children} {look : Look} :
    style.look before.toLookups container = some look →
    style.look after.toLookups container = some look →
    (∀ child ∈ children, ReadsSame before after look.box child) →
    ReadsSame before after container (.block style children)
  | ofList {before after container style children rows} {look : Look} :
    style.look before.toLookups container = some look →
    style.look after.toLookups container = some look →
    (∀ height, itemHeight? children = some height →
      height.evaluateWord before.toLookups = height.evaluateWord after.toLookups) →
    (∀ height, itemHeight? children = some height → ∀ (row : Nat) (widgets : List Widget),
      (rows.getD [])[row]? = some widgets → ∀ child ∈ widgets,
        ReadsSame (before.atRow row) (after.atRow row)
          (rowBox look.box (height.evaluateWord before.toLookups) row) child) →
    ReadsSame before after container (.list style children rows)

/-- Drawn a second time without asking for it, the widget is drawn as it was. -/
def DrawsAgain (w : Widget) : Prop :=
  ∀ (before after : Surroundings Id) (container : Rect) (earlier now : Nat),
    let drawn := w.draw before container earlier
    ReadsSame before after container drawn.1 → drawn.1.needsUpdate after now = false →
      drawn.1.draw after container now = drawn

/-- The same of all the widgets that are drawn together. -/
def AllDrawAgain (drawing : Drawing Id (List Widget)) : Prop :=
  ∀ (before after : Surroundings Id) (container : Rect) (earlier now : Nat),
    let drawn := drawing before container earlier
    (∀ child ∈ drawn.1, ReadsSame before after container child) →
      anyNeedsUpdate after now drawn.1 = false → drawAll drawn.1 after container now = drawn

theorem drawAll_again {children : List Widget} (hchildren : ∀ child ∈ children, child.DrawsAgain) :
    AllDrawAgain (drawAll children) := by
  intro before after container earlier now
  induction children with
  | nil => exact fun _ _ => rfl
  | cons first rest ih =>
      simp only [List.forall_mem_cons] at hchildren
      rw [drawAll_cons]
      intro drawn hsame hidle
      obtain ⟨hsame, hsame'⟩ := List.forall_mem_cons.mp hsame
      obtain ⟨hidle, hidle'⟩ := anyNeedsUpdate_cons.mp hidle
      rw [drawAll_cons, hchildren.1 before after container earlier now hsame hidle,
        ih hchildren.2 hsame' hidle']

theorem drawTemplate_again {children : List Widget}
    (hchildren : ∀ child ∈ children, child.DrawsAgain) : AllDrawAgain (drawTemplate children) := by
  cases children with
  | nil => exact fun before after container earlier now _ _ => rfl
  | cons item template =>
      exact drawAll_again fun child hchild => hchildren child (List.mem_cons_of_mem _ hchild)

theorem drawRows_again {fresh : Drawing Id (List Widget)} (hfresh : AllDrawAgain fresh)
    {rows : List (Drawing Id (List Widget))} (hrows : ∀ drawing ∈ rows, AllDrawAgain drawing)
    (fresh' : Drawing Id (List Widget)) (box : Rect) (height : Int) (earlier now row count : Nat)
    (hsame : ∀ (i : Nat) (widgets : List Widget),
      (drawRows fresh before box height earlier row count rows).1[i]? = some widgets →
      ∀ child ∈ widgets, ReadsSame (before.atRow (row + i)) (after.atRow (row + i))
        (rowBox box height (row + i)) child)
    (hidle : rowsNeedUpdateFrom after now row
      (drawRows fresh before box height earlier row count rows).1 = false) :
    let drawn := drawRows fresh before box height earlier row count rows
    drawRows fresh' after box height now row count (drawn.1.map drawAll) = drawn := by
  induction count generalizing row rows with
  | zero => rfl
  | succ count ih =>
      rw [drawRows_succ] at hsame hidle ⊢
      have hhead : AllDrawAgain (rows.head?.getD fresh) := nextDrawing_of_forall hfresh hrows
      have htail : ∀ drawing ∈ rows.tail, AllDrawAgain drawing :=
        fun drawing hdrawing => hrows drawing (List.mem_of_mem_tail hdrawing)
      obtain ⟨hidle, hidle'⟩ := rowsNeedUpdateFrom_cons.mp hidle
      have hfirst := hhead (before.atRow row) (after.atRow row) (rowBox box height row) earlier now
        (hsame 0 _ rfl) hidle
      have hothers := ih htail (row + 1) (fun i widgets hwidgets => by
        have hsame' := hsame (i + 1) widgets hwidgets
        rwa [show row + (i + 1) = row + 1 + i by omega] at hsame') hidle'
      intro drawn
      rw [show drawn.1.map drawAll = _ :: _ from List.map_cons, drawRows_succ, List.head?_cons,
        Option.getD_some, List.tail_cons, hfirst, hothers]

theorem ReadsSame.look {container : Rect} {w : Widget} (h : ReadsSame before after container w) :
    w.style.look before.toLookups container = w.style.look after.toLookups container := by
  cases h with
  | ofHidden hbefore hafter => exact hbefore.trans hafter.symm
  | ofLeaf hbefore hafter => exact hbefore.trans hafter.symm
  | ofBlock hbefore hafter => exact hbefore.trans hafter.symm
  | ofList hbefore hafter => exact hbefore.trans hafter.symm

/-- A widget draws again as it was if it does so where it shows. -/
theorem drawsAgain_of_visible {w : Widget}
    (h : ∀ (before after : Surroundings Id) (container : Rect) (look : Look) (earlier now : Nat),
      w.style.look before.toLookups container = some look →
      let drawn := w.draw before container earlier
      ReadsSame before after container drawn.1 → drawn.1.needsUpdate after now = false →
      drawn.1.draw after container now = drawn) : w.DrawsAgain := by
  intro before after container earlier now drawn hsame hidle
  obtain ⟨-, hlook⟩ | ⟨-, look, hlook⟩ := w.style.look_spec before container
  · have hdrawn : drawn = (w, []) := draw_of_hidden hlook
    rw [hdrawn] at hsame ⊢
    exact draw_of_hidden (hsame.look.symm.trans hlook)
  · exact h before after container look earlier now hlook hsame hidle

theorem isVisible_of_look {world : Surroundings Id} {style : Style} {container : Rect}
    {look : Look} (h : style.look world.toLookups container = some look) :
    style.isVisible world.toLookups = true := by
  obtain ⟨-, hnone⟩ | ⟨hvisible, -⟩ := style.look_spec world container
  · cases hnone.symm.trans h
  · exact hvisible

theorem drawsAgain (w : Widget) : w.DrawsAgain := by
  induction w with
  | leaf style kind =>
      apply drawsAgain_of_visible
      intro before after container look earlier now hlook
      simp only [Widget.style] at hlook
      rw [draw_leaf hlook]
      intro drawn hsame hidle
      cases hsame with
      | ofHidden hbefore => cases hbefore.symm.trans hlook
      | ofLeaf hbefore hafter hkind =>
          obtain rfl := Option.some.inj (hlook.symm.trans hbefore)
          rw [needsUpdate_leaf (isVisible_of_look hafter)] at hidle
          rw [draw_leaf hafter, kind.draw_again _ hkind hidle]
  | block style children ih =>
      apply drawsAgain_of_visible
      intro before after container look earlier now hlook
      simp only [Widget.style] at hlook
      rw [draw_block hlook]
      intro drawn hsame hidle
      cases hsame with
      | ofHidden hbefore => cases hbefore.symm.trans hlook
      | ofBlock hbefore hafter hchildren =>
          obtain rfl := Option.some.inj (hlook.symm.trans hbefore)
          rw [needsUpdate_block (isVisible_of_look hafter)] at hidle
          rw [draw_block hafter, drawAll_again ih before after _ earlier now hchildren hidle]
  | list style children rows ih ihRows =>
      apply drawsAgain_of_visible
      intro before after container look earlier now hlook
      simp only [Widget.style] at hlook
      cases hitem : itemHeight? children with
      | none =>
          rw [draw_list_without_item hlook hitem]
          intro drawn hsame hidle
          exact draw_list_without_item (hsame.look.symm.trans hlook) hitem
      | some height =>
          rw [draw_list hlook hitem]
          intro drawn hsame hidle
          cases hsame with
          | ofHidden hbefore => cases hbefore.symm.trans hlook
          | ofList hbefore hafter hheight hrows =>
              obtain rfl := Option.some.inj (hlook.symm.trans hbefore)
              rw [needsUpdate_list (isVisible_of_look hafter)] at hidle
              have hdrawings : ∀ drawing ∈ rowDrawings rows, AllDrawAgain drawing :=
                forall_mem_rowDrawings.mpr fun row hrow => drawAll_again (ihRows row hrow)
              have hagain := drawRows_again (drawTemplate_again ih) hdrawings
                (drawTemplate children) look.box (height.evaluateWord before.toLookups) earlier now
                0 (rowCount look.box (height.evaluateWord before.toLookups))
                (fun i widgets hwidgets => by
                  rw [Nat.zero_add]
                  exact hrows height hitem i widgets hwidgets) hidle
              rw [draw_list hafter hitem, drawnRows, ← hheight height hitem, rowDrawings_eq_map]
              exact congrArg (fun drawn : List (List Widget) × List DrawCall =>
                (Widget.list style children (some drawn.1), drawn.2)) hagain

/-- A tree that does not ask for it would be drawn as it was, if everything that asking takes no
notice of reads the same as at the last drawing. -/
theorem draw_of_idle {σ : Type} {valid valid' : Cells → σ → Prop} {before after : Surroundings Id}
    {s r : Surroundings (Run σ)} (hbefore : (steadily valid).Surroundings before s)
    (hafter : (steadily valid').Surroundings after r) (w : Widget) (container : Rect)
    {earlier now : Nat}
    (hsame : ReadsSame before after container (w.draw before container earlier).1)
    (hidle : (w.draw before container earlier).1.needsUpdate after now = false) :
    let drawn := w.draw before container earlier
    (steadily valid).rel drawn (w.draw s container earlier) ∧
      (steadily valid').rel (false : Id Bool) (drawn.1.needsUpdate r now) ∧
      (steadily valid').rel drawn (drawn.1.draw r container now) := by
  intro drawn
  refine ⟨Correspondence.draw_related w before s hbefore container earlier, ?_, ?_⟩
  · rw [← hidle]
    exact Correspondence.needsUpdate_related drawn.1 now hafter
  · have hagain := Correspondence.draw_related drawn.1 after r hafter container now
    rwa [w.drawsAgain before after container earlier now hsame hidle] at hagain

theorem ReadsSame.refl (world : Surroundings Id) (container : Rect) (w : Widget) :
    ReadsSame world world container w := by
  induction w generalizing world container with
  | leaf style kind =>
      obtain ⟨-, hlook⟩ | ⟨-, look, hlook⟩ := style.look_spec world container
      · exact .ofHidden hlook hlook
      · apply ReadsSame.ofLeaf hlook hlook
        cases kind with
        | text t => exact ⟨rfl, rfl, rfl⟩
        | picture b => exact ⟨rfl, rfl⟩
        | _ => exact fun _ => rfl
  | block style children ih =>
      obtain ⟨-, hlook⟩ | ⟨-, look, hlook⟩ := style.look_spec world container
      · exact .ofHidden hlook hlook
      · exact .ofBlock hlook hlook fun child hchild => ih child hchild world look.box
  | list style children rows _ ihRows =>
      obtain ⟨-, hlook⟩ | ⟨-, look, hlook⟩ := style.look_spec world container
      · exact .ofHidden hlook hlook
      · apply ReadsSame.ofList hlook hlook
        · exact fun _ _ => rfl
        · intro height _ row widgets hwidgets child hchild
          exact ihRows widgets (List.mem_of_getElem? hwidgets) child hchild _ _

/-- While nothing changes but the time, asking can be relied on. -/
theorem draw_of_unchanged (world : Surroundings Id) (w : Widget) (container : Rect)
    {earlier now : Nat} (hidle : (w.draw world container earlier).1.needsUpdate world now = false) :
    (w.draw world container earlier).1.draw world container now = w.draw world container earlier :=
  w.drawsAgain world world container earlier now (.refl world container _) hidle

/-- A host with a title and a volume. -/
def playing (volume : Int64) : Surroundings Id :=
  { gallery with
    token := fun t => if t.name = "volume" then .number volume else .text "now playing" }

/-- The title, which scrolls. -/
def titleLine : Widget :=
  .block {} [.leaf {} (.text {
    font := "f", text := ⟨[.token { name := "title", id := 0 }]⟩, scroll := .always })]

/-- The volume changes, and half the pause before the next step has passed. -/
theorem draw_of_idle_title :
    (titleLine.draw (playing 1) ⟨0, 0, 29, 15⟩ 0).1.needsUpdate (playing 9) 50 = false ∧
    let drawn := titleLine.draw (playing 1) ⟨0, 0, 29, 15⟩ 0
    (steadily fun _ _ => True).rel drawn
        (titleLine.draw (.fixed (playing 1) : Surroundings (Run Unit)) ⟨0, 0, 29, 15⟩ 0) ∧
      (steadily fun _ _ => True).rel (false : Id Bool)
        (drawn.1.needsUpdate (.fixed (playing 9) : Surroundings (Run Unit)) 50) ∧
      (steadily fun _ _ => True).rel drawn
        (drawn.1.draw (.fixed (playing 9) : Surroundings (Run Unit)) ⟨0, 0, 29, 15⟩ 50) := by
  have hidle :
      (titleLine.draw (playing 1) ⟨0, 0, 29, 15⟩ 0).1.needsUpdate (playing 9) 50 = false := by
    rfl
  have hsame : ReadsSame (playing 1) (playing 9) ⟨0, 0, 29, 15⟩
      (titleLine.draw (playing 1) ⟨0, 0, 29, 15⟩ 0).1 := by
    apply ReadsSame.ofBlock rfl rfl
    intro child hchild
    obtain rfl := List.mem_singleton.mp hchild
    exact .ofLeaf rfl rfl ⟨rfl, rfl, rfl⟩
  exact ⟨hidle, draw_of_idle (.fixed _) (.fixed _) titleLine _ hsame hidle⟩

/-- A button that shows the volume. -/
def volumeButton : Widget :=
  .leaf {} (.button { font := "f", text := ⟨[.token { name := "volume", id := 1 }]⟩ })

/-- The text that a call writes. -/
def written? : DrawCall → Option String
  | .text run => some run.text
  | _ => none

/-- A button does not ask to be drawn again when its label changes. -/
theorem label_changes_unnoticed :
    ¬ ∀ (before after : Surroundings Id) (w : Widget) (container : Rect) (earlier now : Nat),
      w.IsNew → earlier < now →
      (w.draw before container earlier).1.needsUpdate after now = false →
      ((w.draw before container earlier).1.draw after container now).2 =
        (w.draw before container earlier).2 := by
  intro h
  have hsame := h (playing 1) (playing 9) volumeButton ⟨0, 0, 23, 11⟩ 0 10 (.ofLeaf trivial)
    (by decide) rfl
  have hlabels : ["9"] = ["1"] := congrArg (List.filterMap written?) hsame
  simp at hlabels

end Widget

end PanelSkin
