import Mathlib.Logic.Relation
import Mathlib.Tactic.Ring
import PanelSkin.Proofs.Expr.Expansion
import PanelSkin.Proofs.Skin.Context
import PanelSkin.Proofs.Skin.Events

/-!
Fonts in circles. Nothing keeps the condition of a font from asking for the font itself, and a
font that does is never found. Where the conditions do not lead in a circle every lookup of a font
returns: on the way down there is always one declaration less that can be met again, or one flag
more up.
-/

namespace PanelSkin

/-- Looking the one name up can look the other up, through the value of a variable or through a
condition. -/
inductive Asks (vars : VariableTable) (fonts : FontTable) : Name → Name → Prop where
  | ofVariable {v : VariableDecl} {name : Name} (hv : v ∈ vars.declarations)
      (hname : v.Names name) : Asks vars fonts (.variable v.id) name
  | ofFont {f : FontDecl} {condition : Expr} {name : Name} (hf : f ∈ fonts.declarations)
      (hcondition : f.condition = some condition) (hname : condition.Names name) :
      Asks vars fonts (.font f.id) name

namespace Context

variable (c : Context)

theorem onShelf_quiet {α : Type} (f : Shelf → α × Shelf) : (Evaluation.onShelf f).Quiet :=
  fun _ shelf => ⟨(f shelf).1, (f shelf).2, rfl⟩

theorem token_quiet (t : Token) (row : Option Nat) : (c.token t row).Quiet := onShelf_quiet _

theorem picture_quiet (name : String) (width height : Option Nat) :
    (c.picture name width height).Quiet := onShelf_quiet _

/-- Everything that a name can ask for. -/
def Behind (name : Name) : Name → Prop := Relation.TransGen (Asks c.variableTable c.fontTable) name

/-- No font among the names, or behind one of them, asks for itself. -/
structure Uncircled (names : Name → Prop) : Prop where
  closed : ∀ name other, names name → Asks c.variableTable c.fontTable name other → names other
  apart : ∀ id, names (.font id) → ¬ c.Behind (.font id) (.font id)

open Classical in
/-- How many fonts are declared under one of the names. -/
noncomputable def fontsNamed (names : Name → Prop) : Nat :=
  c.fontTable.declarations.countP fun f => names (.font f.id)

variable {c} {names : Name → Prop}

theorem fontsNamed_le : c.fontsNamed names ≤ c.fontTable.size := List.countP_le_length

theorem Uncircled.forall_behind (h : c.Uncircled names) {name other : Name} (hname : names name)
    (hbehind : c.Behind name other) : names other := by
  induction hbehind with
  | single hasks => exact h.closed _ _ hname hasks
  | tail _ hasks ih => exact h.closed _ _ ih hasks

theorem Uncircled.behind (h : c.Uncircled names) {name : Name} (hname : names name) :
    c.Uncircled (c.Behind name) where
  closed _ _ hbehind hasks := .tail hbehind hasks
  apart id hid := h.apart id (h.forall_behind hname hid)

/-- Behind a font there are fewer fonts than with the font itself. -/
theorem Uncircled.fontsNamed_lt (h : c.Uncircled names) {f : FontDecl}
    (hf : f ∈ c.fontTable.declarations) (hname : names (.font f.id)) :
    c.fontsNamed (c.Behind (.font f.id)) < c.fontsNamed names := by
  classical
  have hsplit : c.fontsNamed (c.Behind (.font f.id)) =
      (c.fontTable.declarations.filter fun g => names (.font g.id)).countP
        fun g => c.Behind (.font f.id) (.font g.id) := by
    rw [List.countP_filter]
    apply List.countP_congr
    intro g _
    simpa using fun hbehind => h.forall_behind hname hbehind
  have hmem : f ∈ c.fontTable.declarations.filter fun g => names (.font g.id) := by
    simpa using ⟨hf, hname⟩
  rw [hsplit, fontsNamed, List.countP_eq_length_filter, List.countP_eq_length_filter]
  apply List.length_filter_lt_length_iff_exists.mpr
  exact ⟨f, hmem, by simpa using h.apart f.id hname⟩

/-- A font is found alike through lookups that behind it are alike. -/
theorem font_returning {flags : List Bool} {l k : Lookups Evaluation} {id : String}
    (h : (∃ f ∈ c.fontTable.declarations, f.id = id) →
      (returning flags).LookupsOn (c.Behind (.font id)) l k) :
    (returning flags).rel (c.font l id) (c.font k id) := by
  apply c.font_related
  · rintro f hf rfl condition hcondition
    apply (h ⟨f, hf, rfl⟩).evaluateBool
    exact fun name hname => .single (.ofFont hf hcondition hname)
  · exact fun index f _ => (onShelf_quiet _).returning flags

/-- Lookups of the names return as soon as they may nest deeper than there are flags down and fonts
among the names. -/
theorem Uncircled.lookups_returning (h : c.Uncircled names) {flags : List Bool}
    (hflags : flags.length = c.variableTable.size) {depth deeper : Nat}
    (hdepth : flags.count false + c.fontsNamed names < depth)
    (hdeeper : flags.count false + c.fontsNamed names < deeper) :
    (returning flags).LookupsOn names (c.lookups depth) (c.lookups deeper) := by
  induction depth generalizing flags names deeper with
  | zero => omega
  | succ depth ih =>
      cases deeper with
      | zero => omega
      | succ deeper =>
          have hvalue (id : String) (hid : names (.variable id)) :
              (returning flags).rel (c.variableTable.value (c.lookups depth) id)
                (c.variableTable.value (c.lookups deeper) id) := by
            apply c.variableTable.value_returning_of_served hflags (c.lookups_clock _ _)
            rintro v hv rfl index hdown
            have hfewer := count_set_true hdown
            have hinner : (returning (flags.set index true)).LookupsOn names (c.lookups depth)
                (c.lookups deeper) := ih h (by simpa using hflags) (by omega) (by omega)
            exact VariableDecl.served_of_names hinner fun name hname =>
              h.closed _ _ hid (.ofVariable hv hname)
          have hfont (id : String) (hid : names (.font id)) :
              (returning flags).rel (c.font (c.lookups depth) id)
                (c.font (c.lookups deeper) id) := by
            apply font_returning
            rintro ⟨f, hf, rfl⟩
            have hfewer := h.fontsNamed_lt hf hid
            exact ih (h.behind hid) hflags (by omega) (by omega)
          simp only [lookups]
          exact c.lookupsWith_related hvalue hfont
            (fun t => (c.token_quiet t none).returning flags)
            (fun name width height => (c.picture_quiet name width height).returning flags)

theorem lt_depth (c : Context) : c.variableTable.size + c.fontTable.size < c.depth := by
  have hdepth : c.depth = 2 * (c.variableTable.size * c.fontTable.size) +
      4 * c.variableTable.size + 2 * c.fontTable.size + 4 := by
    unfold depth
    ring
  omega

end Context

namespace Skin

/-- A font is found, or found missing, if no font that its conditions lead to, itself among them,
leads back to itself. No further level of nesting changes the outcome, and the flags of the
variables are left as they were, whichever of them are up. -/
theorem font_returns (s : Skin) (hcells : s.cells.length = s.variableTable.size)
    (env : Environment) {id : String}
    (hcircles : ∀ other,
      Relation.TransGen (Asks s.variableTable s.fontTable) (.font id) (.font other) →
        ¬ Relation.TransGen (Asks s.variableTable s.fontTable) (.font other) (.font other)) :
    let c := s.context env
    ∃ face later, s.font env id = some (face, later) ∧ later.cells.flags = s.cells.flags ∧
      ∀ depth, c.depth ≤ depth →
        c.font (c.lookups depth) id s.cells s.shelf = some ((face, later.cells), later.shelf) := by
  intro c
  have huncircled : c.Uncircled (c.Behind (.font id)) := ⟨fun _ _ => .tail, hcircles⟩
  have hflags : s.cells.flags.length = c.variableTable.size := (List.length_map _).trans hcells
  have hcount : s.cells.flags.count false ≤ c.variableTable.size :=
    hflags ▸ List.count_le_length
  have hfonts : c.fontsNamed (c.Behind (.font id)) ≤ c.fontTable.size := Context.fontsNamed_le
  have hdepth := c.lt_depth
  have hagree (depth : Nat) (hlarge : c.depth ≤ depth) : (returning s.cells.flags).rel
      (c.font (c.lookups c.depth) id) (c.font (c.lookups depth) id) := by
    apply Context.font_returning
    exact fun _ => huncircled.lookups_returning hflags (by omega) (by omega)
  obtain ⟨face, after, shelf, hafter, hrun⟩ :=
    exists_outcome_of_returning (hagree c.depth (Nat.le_refl _)) s.shelf
  have hall : c.font c.all id s.cells s.shelf = some ((face, after), shelf) :=
    hrun _ (hagree c.depth (Nat.le_refl _))
  refine ⟨face, { s with cells := after, shelf }, ?_, hafter, fun depth hlarge => ?_⟩
  · change (c.font c.all id s.cells s.shelf).map _ = _
    rw [hall]
    rfl
  · exact hrun _ (hagree depth hlarge)

/-- A font whose condition asks for another one, through a variable. -/
theorem font_returns_behind_variable :
    let height : VariableDecl :=
      { id := "h", value := .call (.fontMetric .lineHeight) [.text ⟨[.literal "g"]⟩] }
    let large : FontDecl :=
      { id := "f", spec := .bitmap "f.fnt"
        condition := some (.call (.compare .gt) [.reference "h", .number 8]) }
    let plain : FontDecl := { id := "g", spec := .bitmap "g.fnt" }
    let s : Skin :=
      { header := { version := "1.0", name := "", enable := none }, displays := [], base := ⟨"s"⟩
        variableTable := ⟨[height]⟩, fontTable := ⟨[large, plain]⟩, cells := [{}]
        shelf := { fontSlots := [none, none], pictures := .empty ⟨"s"⟩ 1 } }
    let c := s.context (Environment.ofTexts [])
    s.cells.length = s.variableTable.size ∧
      (∀ other, Relation.TransGen (Asks s.variableTable s.fontTable) (.font "f") (.font other) →
        ¬ Relation.TransGen (Asks s.variableTable s.fontTable) (.font other) (.font other)) ∧
      ∃ face later, s.font (Environment.ofTexts []) "f" = some (face, later) ∧
        later.cells.flags = [false] ∧ ∀ depth, c.depth ≤ depth →
          c.font (c.lookups depth) "f" s.cells s.shelf =
            some ((face, later.cells), later.shelf) := by
  intro height large plain s c
  let rank (name : Name) : Nat :=
    if name = .font "f" then 2 else if name = .variable "h" then 1 else 0
  have hasks : ∀ a b, Asks s.variableTable s.fontTable a b → rank b < rank a := by
    intro a b h
    cases h with
    | ofVariable hv hname =>
        obtain rfl := List.mem_singleton.mp hv
        cases hname with
        | condition hcondition _ => cases hcondition
        | value hname =>
            cases hname with
            | argument harg hname =>
                obtain rfl := List.mem_singleton.mp harg
                cases hname with
                | segment hsegment => simp at hsegment
            | fontMetric hid =>
                obtain rfl := hid (.text "g") rfl
                decide
        | expansion hexpands => cases hexpands
    | ofFont hf hcondition hname =>
        obtain rfl | rfl := List.mem_pair.mp hf
        · cases hcondition
          cases hname with
          | argument harg hname =>
              obtain rfl | rfl := List.mem_pair.mp harg
              · cases hname
                decide
              · cases hname
        · cases hcondition
  have hdescends {a b : Name} (h : Relation.TransGen (Asks s.variableTable s.fontTable) a b) :
      rank b < rank a := by
    induction h with
    | single h => exact hasks _ _ h
    | tail _ h ih => exact (hasks _ _ h).trans ih
  have hcells : s.cells.length = s.variableTable.size := rfl
  have hcircles : ∀ other,
      Relation.TransGen (Asks s.variableTable s.fontTable) (.font "f") (.font other) →
        ¬ Relation.TransGen (Asks s.variableTable s.fontTable) (.font other) (.font other) :=
    fun _ _ hloop => Nat.lt_irrefl _ (hdescends hloop)
  exact ⟨hcells, hcircles, font_returns s hcells (Environment.ofTexts []) hcircles⟩

end Skin

theorem Run.bind_eq_none {σ α β : Type} {x : Run σ α} {f : α → Run σ β} {cells : Cells} {st : σ}
    (hx : x cells st = none) : (x >>= f) cells st = none := by
  rw [Run.bind_run, hx]
  rfl

/-- The condition is a measure of the font that has the id of the declaration. -/
def FontDecl.asksForItself (f : FontDecl) : Bool :=
  match f.condition with
  | some (.call (.fontMetric _) [.text ⟨[.literal id]⟩]) => id == f.id
  | _ => false

theorem FontDecl.holds_of_asksForItself {f : FontDecl} (hf : f.asksForItself = true)
    {l : Lookups Evaluation} {cells : Cells} {shelf : Shelf}
    (hmetric : ∀ metric, l.fontMetric f.id metric cells shelf = none) :
    f.holds l cells shelf = none := by
  unfold asksForItself at hf
  split at hf
  · rename_i metric id hcondition
    obtain rfl : id = f.id := by simpa using hf
    unfold holds
    rw [hcondition]
    apply Run.bind_eq_none
    apply Run.bind_eq_none
    rw [Expr.evaluate, Expr.evaluateAt, Expr.evaluate_of_constant rfl, pure_bind, ExceptT.run_bind]
    apply Run.bind_eq_none
    change (Except.ok <$> l.fontMetric f.id metric) cells shelf = none
    rw [map_eq_pure_bind]
    exact Run.bind_eq_none (hmetric metric)
  · cases hf

/-- A font whose first declaration asks for the font itself has no outcome, however deep the lookups
may nest. -/
theorem Context.font_of_asksForItself {c : Context} {f : FontDecl} {rest : List FontDecl}
    (hfonts : c.fontTable.declarations = f :: rest) (hf : f.asksForItself = true) (depth : Nat)
    (cells : Cells) (shelf : Shelf) : c.font (c.lookups depth) f.id cells shelf = none := by
  have hstuck {l : Lookups Evaluation}
      (hmetric : ∀ metric, l.fontMetric f.id metric cells shelf = none) :
      c.font l f.id cells shelf = none := by
    unfold font FontTable.select
    rw [hfonts, FontTable.selectFrom, if_pos rfl, bind_assoc]
    exact Run.bind_eq_none (FontDecl.holds_of_asksForItself hf hmetric)
  induction depth with
  | zero => exact hstuck fun metric => rfl
  | succ depth ih =>
      apply hstuck
      intro metric
      rw [lookups]
      exact Run.bind_eq_none ih

/-- A font with a condition that asks how high its own lines are. No lookup of it ends. -/
theorem Skin.font_asking_for_itself :
    let env := Environment.ofTexts []
    let text := "<skin version=\"1.0\" name=\"test\">" ++
      "<font id=\"f\" url=\"ft2:f.ttf:8\" condition=\"FontLineHeight('f')\"/></skin>"
    ∃ s, Skin.loadBytes env {} ⟨"s"⟩ text.toUTF8.data.toList = .ok s ∧ s.font env "f" = none ∧
      ∀ depth, let c := s.context env
        c.font (c.lookups depth) "f" s.cells s.shelf = none := by
  intro env text
  have hrun : ((Skin.loadBytes env {} ⟨"s"⟩ text.toUTF8.data.toList).toOption.bind fun s =>
      s.fontTable.declarations.head?.map fun f => (f.id, f.asksForItself)) = some ("f", true) := by
    decide +kernel
  obtain ⟨s, hload, hdeclared⟩ := Option.bind_eq_some_iff.mp hrun
  obtain ⟨f, hfirst, hf⟩ := Option.map_eq_some_iff.mp hdeclared
  obtain ⟨hid, hasks⟩ := Prod.mk.inj hf
  obtain ⟨rest, hfonts⟩ := List.head?_eq_some_iff.mp hfirst
  have hnone (depth : Nat) : (s.context env).font ((s.context env).lookups depth) "f" s.cells
      s.shelf = none := by
    rw [← hid]
    exact Context.font_of_asksForItself hfonts hasks depth s.cells s.shelf
  refine ⟨s, toOption_eq_some_iff.mp hload, ?_, hnone⟩
  change ((s.context env).font ((s.context env).lookups _) "f" s.cells s.shelf).map _ = none
  rw [hnone]
  rfl

end PanelSkin
