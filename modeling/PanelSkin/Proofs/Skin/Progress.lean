import PanelSkin.Proofs.Skin.Includes

/-!
Loading step by step. A step takes one event of the file that is being read; an include element
suspends that file and opens another, and the end of a file resumes the one around it. The steps
come to an end for any files, however they include each other, with the outcome of the load.
-/

namespace PanelSkin

open Markup (Event ParseError)

/-- A file that is being read: where it was included, and what is left of it. -/
structure OpenFile where
  source : Source
  line : Nat
  rest : Markup.Scan

/-- An error in the innermost of some files, as the outermost has it. -/
def OpenFile.report : List OpenFile → ParseError LoadError → ParseError LoadError
  | f :: g :: outer, cause => report (g :: outer) (.refused f.line (.inInclude f.source.path cause))
  | _, cause => cause

/-- How far a load has come. -/
inductive Stage where
  /-- Files are being read, the innermost in front; the last is the one that includes the others. -/
  | reading (files : List OpenFile) (d : Draft)
  | stopped (outcome : Except (ParseError LoadError) Draft)

namespace Stage

/-- The number of included files that are being read. -/
def includesOpen : Stage → Nat
  | .reading files _ => files.length - 1
  | .stopped _ => 0

/-- The next event starts an include element that names a file, with `limit` included files open. -/
def AtLimit (limit : Nat) : Stage → Prop
  | .reading (f :: outer) _ => outer.length = limit ∧ ∃ attributes file,
      f.rest.events.head?.bind Event.include? = some attributes ∧
      attributes.get? "path" = some file
  | _ => False

end Stage

open OpenFile (report)

namespace Loading

/-- Opens a file inside of others, which has been included on some line. -/
def enter (l : Loading) (files : List OpenFile) (line : Nat) (s : Source) (d : Draft) : Stage :=
  match l.env.skinFile s.path with
  | .ok bytes => .reading (⟨s, line, l.env.scan bytes⟩ :: files) d
  | .error cause =>
    .stopped (.error (report (⟨s, line, ⟨[], none⟩⟩ :: files) (.unreadable s.path cause)))

/-- The stage after an event of file `f` was taken or refused. -/
def resume (f : OpenFile) (outer : List OpenFile) (line : Nat) : Except LoadError Draft → Stage
  | .ok d => .reading (f :: outer) d
  | .error cause => .stopped (.error (report (f :: outer) (.refused line cause)))

/-- Takes an event of file `f`, of which the events after it are left. -/
def take (l : Loading) (f : OpenFile) (outer : List OpenFile) (event : Event) (d : Draft) : Stage :=
  match event.include? with
  | none => resume f outer event.line (((l.handle (!outer.isEmpty) event).run d).map (·.2))
  | some attributes =>
    match attributes.get? "path" with
    | none => resume f outer event.line (.error (.missingAttribute "include" "path"))
    | some file =>
      let s := f.source.included file
      if outer.length < l.options.includeDepth then l.enter (f :: outer) event.line s d
      else resume f outer event.line (.error (.includeDepth s.path l.options.includeDepth))

def step (l : Loading) : Stage → Stage
  | .stopped outcome => .stopped outcome
  | .reading [] d => .stopped (.ok d)
  | .reading (⟨s, line, ⟨event :: events, failure⟩⟩ :: outer) d =>
    l.take ⟨s, line, ⟨events, failure⟩⟩ outer event d
  | .reading (⟨_, _, ⟨[], none⟩⟩ :: outer) d => .reading outer d
  | .reading (f@⟨_, _, ⟨[], some (line, cause)⟩⟩ :: outer) _ =>
    .stopped (.error (report (f :: outer) (.malformed line cause)))

/-- Some number of steps leads from one stage to another. -/
def Reaches (l : Loading) (x y : Stage) : Prop := ∃ n, l.step^[n] x = y

variable {l : Loading} {x y z : Stage}

theorem Reaches.refl (x : Stage) : l.Reaches x x := ⟨0, rfl⟩

theorem Reaches.head (h : l.Reaches (l.step x) y) : l.Reaches x y := by
  obtain ⟨n, hn⟩ := h
  exact ⟨n + 1, by rw [Function.iterate_succ_apply, hn]⟩

theorem Reaches.trans (hxy : l.Reaches x y) (hyz : l.Reaches y z) : l.Reaches x z := by
  obtain ⟨n, rfl⟩ := hxy
  obtain ⟨m, rfl⟩ := hyz
  exact ⟨m + n, Function.iterate_add_apply l.step m n x⟩

theorem iterate_stopped (outcome : Except (ParseError LoadError) Draft) (n : Nat) :
    l.step^[n] (.stopped outcome) = .stopped outcome := by
  induction n with
  | zero => rfl
  | succ n ih => exact ih

/-- Where the steps stop does not depend on how many are made. -/
theorem stopped_unique {n m : Nat} {outcome other : Except (ParseError LoadError) Draft}
    (hn : l.step^[n] x = .stopped outcome) (hm : l.step^[m] x = .stopped other) :
    outcome = other := by
  wlog hle : n ≤ m generalizing n m outcome other
  · exact (this hm hn (by omega)).symm
  · obtain ⟨k, rfl⟩ := Nat.exists_eq_add_of_le' hle
    rw [Function.iterate_add_apply, hn, iterate_stopped] at hm
    exact Stage.stopped.inj hm

/-- The stage after the innermost of some files has been delivered. -/
def after (files : List OpenFile) : Draft × Option (ParseError LoadError) → Stage
  | (d, none) => .reading files.tail d
  | (_, some cause) => .stopped (.error (report files cause))

theorem deliver_cons_eq_of_ok {event : Event} {events : List Event}
    {failure : Option (Nat × Markup.SyntaxError)} {receive : Markup.Receiver Draft LoadError}
    {d d' : Draft} (h : receive event d = .ok d') :
    (⟨event :: events, failure⟩ : Markup.Scan).deliver receive d =
      (⟨events, failure⟩ : Markup.Scan).deliver receive d' := by
  simp only [Markup.Scan.deliver, Markup.deliver_cons_of_ok h]

theorem deliver_cons_eq_of_error {event : Event} {events : List Event}
    {failure : Option (Nat × Markup.SyntaxError)} {receive : Markup.Receiver Draft LoadError}
    {d : Draft} {cause : LoadError} (h : receive event d = .error cause) :
    (⟨event :: events, failure⟩ : Markup.Scan).deliver receive d =
      (d, some (.refused event.line cause)) := by
  simp only [Markup.Scan.deliver, Markup.deliver_cons_of_error h]

theorem after_congr (s : Source) (line : Nat) (rest other : Markup.Scan) (outer : List OpenFile)
    (reached : Draft × Option (ParseError LoadError)) :
    after (⟨s, line, rest⟩ :: outer) reached = after (⟨s, line, other⟩ :: outer) reached := by
  obtain ⟨d, failure⟩ := reached
  cases failure with
  | none => rfl
  | some cause => cases outer <;> rfl

/-- What reading a file at once leads to is reached in steps. -/
def ReachesAfter (l : Loading) (depth : Nat) (f : OpenFile) (outer : List OpenFile) (d : Draft) :
    Prop :=
  l.Reaches (.reading (f :: outer) d)
    (after (f :: outer) (f.rest.deliver (l.receive depth f.source.directory) d))

section Take

variable {f : OpenFile} {outer : List OpenFile} {attributes : Markup.Attributes} {number : Nat}
  {file : String} {d : Draft}

theorem take_plain {event : Event} (h : event.include? = none) : l.take f outer event d =
    resume f outer event.line (((l.handle (!outer.isEmpty) event).run d).map (·.2)) := by
  simp [take, h]

theorem take_without_path (hpath : attributes.get? "path" = none) :
    l.take f outer (.start "include" attributes number) d =
      resume f outer number (.error (.missingAttribute "include" "path")) := by
  simp [take, Event.include?, hpath, Event.line]

theorem take_too_deep (hpath : attributes.get? "path" = some file)
    (h : l.options.includeDepth ≤ outer.length) :
    l.take f outer (.start "include" attributes number) d = resume f outer number
      (.error (.includeDepth (f.source.included file).path l.options.includeDepth)) := by
  simp [take, Event.include?, hpath, Event.line, h]

theorem take_include (hpath : attributes.get? "path" = some file)
    (h : outer.length < l.options.includeDepth) :
    l.take f outer (.start "include" attributes number) d =
      l.enter (f :: outer) number (f.source.included file) d := by
  simp [take, Event.include?, hpath, Event.line, h]

end Take

/-- Taking an event at once leads to what is reached in steps, if that is so for the files which
the event may include. -/
theorem reaches_resume {depth : Nat} {f : OpenFile} {outer : List OpenFile}
    (h : outer.length + depth = l.options.includeDepth)
    (hinner : ∀ inner, depth = inner + 1 → ∀ g d, l.ReachesAfter inner g (f :: outer) d)
    (event : Event) (d : Draft) :
    l.Reaches (l.take f outer event d)
      (resume f outer event.line (l.receive depth f.source.directory event d)) := by
  cases hinclude : event.include? with
  | none =>
      have hflag : (depth != l.options.includeDepth) = !outer.isEmpty := by
        cases outer with
        | nil => simpa using h
        | cons g outer => simp at h ⊢; omega
      rw [take_plain hinclude, receive_of_plain hinclude, hflag]
      exact .refl _
  | some attributes =>
      obtain ⟨number, rfl⟩ := Markup.Event.include?_eq_some_iff.mp hinclude
      cases hpath : attributes.get? "path" with
      | none =>
          rw [take_without_path hpath, receive_include_without_path hpath]
          exact .refl _
      | some file =>
          cases depth with
          | zero =>
              rw [take_too_deep hpath (by omega), receive_include_too_deep hpath]
              exact .refl _
          | succ inner =>
              rw [take_include hpath (by omega), receive_include hpath, enter, Markup.parseFile]
              cases l.env.skinFile (f.source.included file).path with
              | error cause => exact .refl _
              | ok bytes =>
                  refine (hinner inner rfl ⟨_, _, _⟩ d).trans ?_
                  dsimp only [Markup.parse, Environment.scan]
                  obtain ⟨reached, failure⟩ := Markup.Scan.deliver _ _ _
                  cases failure with
                  | none => exact .refl _
                  | some cause => exact .refl _

/-- Reading a file to its end, or to an error, takes finitely many steps, which lead to where
reading it at once leads to. The induction is on the includes that may still be opened, and in a
file on the events that are left of it. -/
theorem reaches_after {depth : Nat} {outer : List OpenFile} {f : OpenFile} {d : Draft}
    (h : outer.length + depth = l.options.includeDepth) : l.ReachesAfter depth f outer d := by
  induction depth using Nat.strong_induction_on generalizing outer f d with
  | _ depth ih =>
      obtain ⟨s, line, ⟨events, failure⟩⟩ := f
      induction events generalizing d with
      | nil =>
          apply Reaches.head
          cases failure with
          | none => exact .refl _
          | some failure => exact .refl _
      | cons event events ihevents =>
          have hinner (inner : Nat) (hdepth : depth = inner + 1) (g : OpenFile) (d : Draft) :
              l.ReachesAfter inner g (⟨s, line, ⟨events, failure⟩⟩ :: outer) d := by
            refine ih inner (by omega) ?_
            rw [List.length_cons]
            omega
          apply Reaches.head
          refine (reaches_resume h hinner event d).trans ?_
          rw [after_congr s line _ ⟨events, failure⟩]
          cases hreceive : l.receive depth s.directory event d with
          | error cause =>
              rw [deliver_cons_eq_of_error hreceive]
              exact .refl _
          | ok next =>
              rw [deliver_cons_eq_of_ok hreceive]
              exact ihevents

/-- What a file gives in the end: the draft that it leads to, or an error. -/
def outcome : Draft × Option (ParseError LoadError) → Except (ParseError LoadError) Draft
  | (d, none) => .ok d
  | (_, some cause) => .error cause

/-- A load comes to an end, with what reading the file at once gives. -/
theorem reaches_outcome (s : Source) (d : Draft) (h : s.directory = l.base) :
    l.Reaches (l.enter [] 0 s d) (.stopped (outcome
      (Markup.parseFile l.env.skinFile l.env.host.charset l.receiver s.path d))) := by
  rw [enter, Markup.parseFile]
  cases l.env.skinFile s.path with
  | error cause => exact .refl _
  | ok bytes =>
      have hreads : l.ReachesAfter l.options.includeDepth ⟨s, 0, l.env.scan bytes⟩ [] d :=
        reaches_after (by simp)
      unfold ReachesAfter at hreads
      rw [h] at hreads
      refine hreads.trans ?_
      dsimp only [Markup.parse, Environment.scan, receiver]
      obtain ⟨reached, failure⟩ := Markup.Scan.deliver _ _ _
      cases failure with
      | none => exact .head (.refl _)
      | some cause => exact .refl _

end Loading

section Depth

open Loading

variable {l : Loading} {x : Stage}

theorem tooDeep_report {limit : Nat} {files : List OpenFile} {cause : ParseError LoadError} :
    TooDeep limit (report files cause) ↔ TooDeep limit cause := by
  fun_induction report files cause with
  | case1 f g outer cause ih =>
      rw [ih]
      constructor
      · intro h
        cases h with
        | inside _ _ hcause => exact hcause
      · exact .inside _ _
  | case2 => rfl

/-- At most `limit` included files are open, besides the one that includes them. -/
def Stage.Within (limit : Nat) : Stage → Prop
  | .reading files _ => files.length ≤ limit + 1
  | .stopped _ => True

theorem Stage.Within.includesOpen_le {limit : Nat} (h : x.Within limit) :
    x.includesOpen ≤ limit := by
  cases x with
  | reading files d => exact Nat.sub_le_of_le_add h
  | stopped outcome => exact Nat.zero_le _

theorem enter_within {files : List OpenFile} {line : Nat} {s : Source} {d : Draft}
    (h : files.length ≤ l.options.includeDepth) :
    (l.enter files line s d).Within l.options.includeDepth := by
  unfold enter
  split
  · exact Nat.succ_le_succ h
  · trivial

theorem resume_within {f : OpenFile} {outer : List OpenFile} {line limit : Nat}
    {taken : Except LoadError Draft} (h : outer.length ≤ limit) :
    (resume f outer line taken).Within limit := by
  cases taken with
  | ok d => exact Nat.succ_le_succ h
  | error cause => trivial

theorem step_within (h : x.Within l.options.includeDepth) :
    (l.step x).Within l.options.includeDepth := by
  unfold step
  split
  · trivial
  · trivial
  · rename_i s line event events failure outer d
    have houter : outer.length ≤ l.options.includeDepth := Nat.le_of_succ_le_succ h
    unfold take
    dsimp only
    split
    · exact resume_within houter
    · split
      · exact resume_within houter
      · split_ifs with hfewer
        · exact enter_within hfewer
        · exact resume_within houter
  · exact Nat.le_of_succ_le h
  · trivial

theorem iterate_within (h : x.Within l.options.includeDepth) (n : Nat) :
    (l.step^[n] x).Within l.options.includeDepth := by
  induction n with
  | zero => exact h
  | succ n ih =>
      rw [Function.iterate_succ_apply']
      exact step_within ih

/-- A file that cannot be opened stops a load, but not because includes nest too deep. -/
theorem enter_not_tooDeep {files : List OpenFile} {line limit : Nat} {s : Source} {d : Draft}
    {cause : ParseError LoadError} (h : l.enter files line s d = .stopped (.error cause)) :
    ¬ TooDeep limit cause := by
  unfold enter at h
  split at h
  · cases h
  · cases h
    rw [tooDeep_report]
    intro hdeep
    cases hdeep

/-- One include too many stops a load, for that reason. -/
theorem step_atLimit (h : x.AtLimit l.options.includeDepth) :
    ∃ cause, l.step x = .stopped (.error cause) ∧ TooDeep l.options.includeDepth cause := by
  unfold Stage.AtLimit at h
  split at h
  · rename_i f outer d
    obtain ⟨hlength, attributes, file, hhead, hpath⟩ := h
    obtain ⟨s, line, ⟨events, failure⟩⟩ := f
    obtain ⟨event, hevent, hinclude⟩ := Option.bind_eq_some_iff.mp hhead
    cases events with
    | nil => cases hevent
    | cons first rest =>
        cases hevent
        obtain ⟨number, rfl⟩ := Markup.Event.include?_eq_some_iff.mp hinclude
        refine ⟨_, take_too_deep hpath hlength.ge, ?_⟩
        exact tooDeep_report.mpr (.here _ _)
  · exact h.elim

/-- An event stops a load for that reason only if it is one include too many. -/
theorem atLimit_of_take {f : OpenFile} {outer : List OpenFile} {event : Event} {d : Draft}
    {cause : ParseError LoadError} (houter : outer.length ≤ l.options.includeDepth)
    (h : l.take f outer event d = .stopped (.error cause))
    (hdeep : TooDeep l.options.includeDepth cause) :
    outer.length = l.options.includeDepth ∧ ∃ attributes file,
      event.include? = some attributes ∧ attributes.get? "path" = some file := by
  cases hinclude : event.include? with
  | none =>
      rw [take_plain hinclude] at h
      cases hrun : (l.handle (!outer.isEmpty) event).run d with
      | ok outcome =>
          rw [hrun] at h
          cases h
      | error plain =>
          rw [hrun] at h
          cases h
          exact absurd (tooDeep_report.mp hdeep) (not_tooDeep_of_isPlain (handle_isPlain hrun))
  | some attributes =>
      obtain ⟨number, rfl⟩ := Markup.Event.include?_eq_some_iff.mp hinclude
      cases hpath : attributes.get? "path" with
      | none =>
          rw [take_without_path hpath] at h
          cases h
          cases tooDeep_report.mp hdeep
      | some file =>
          by_cases hfewer : outer.length < l.options.includeDepth
          · rw [take_include hpath hfewer] at h
            exact absurd hdeep (enter_not_tooDeep h)
          · exact ⟨by omega, attributes, file, rfl, hpath⟩

/-- Nothing but one include too many stops a load for that reason. -/
theorem atLimit_of_step {cause : ParseError LoadError} (hx : x.Within l.options.includeDepth)
    (h : l.step x = .stopped (.error cause)) (hdeep : TooDeep l.options.includeDepth cause) :
    x = .stopped (.error cause) ∨ x.AtLimit l.options.includeDepth := by
  unfold step at h
  split at h
  · exact .inl h
  · cases h
  · exact .inr (atLimit_of_take (Nat.le_of_succ_le_succ hx) h hdeep)
  · cases h
  · cases h
    cases tooDeep_report.mp hdeep

theorem exists_atLimit {n : Nat} {cause : ParseError LoadError}
    (hx : x.Within l.options.includeDepth) (hfirst : x ≠ .stopped (.error cause))
    (h : l.step^[n] x = .stopped (.error cause)) (hdeep : TooDeep l.options.includeDepth cause) :
    ∃ k, (l.step^[k] x).AtLimit l.options.includeDepth := by
  induction n with
  | zero => exact absurd h hfirst
  | succ n ih =>
      rw [Function.iterate_succ_apply'] at h
      rcases atLimit_of_step (iterate_within hx n) h hdeep with hstopped | hlimit
      · exact ih hstopped
      · exact ⟨n, hlimit⟩

/-- The outcome of a load tells whether it has come to one include too many. -/
theorem exists_atLimit_iff {last : Nat} {outcome : Except (ParseError LoadError) Draft}
    (hx : x.Within l.options.includeDepth)
    (hfirst : ∀ cause, x = .stopped (.error cause) → ¬ TooDeep l.options.includeDepth cause)
    (hlast : l.step^[last] x = .stopped outcome) :
    (∃ n, (l.step^[n] x).AtLimit l.options.includeDepth) ↔
      ∃ cause, outcome = .error cause ∧ TooDeep l.options.includeDepth cause := by
  constructor
  · rintro ⟨n, hn⟩
    obtain ⟨cause, hstep, hdeep⟩ := step_atLimit hn
    rw [← Function.iterate_succ_apply' l.step] at hstep
    exact ⟨cause, stopped_unique hlast hstep, hdeep⟩
  · rintro ⟨cause, rfl, hdeep⟩
    exact exists_atLimit hx (fun hstopped => hfirst cause hstopped hdeep) hlast hdeep

end Depth

namespace Skin

/-- The skin that the outcome of a load is made into. -/
def ofOutcome (l : Loading) : Except (ParseError LoadError) Draft → Except SkinError Skin
  | .ok d => ofDraft l d
  | .error cause => .error (.document cause)

theorem ofParse_eq (l : Loading) (reached : Draft × Option (ParseError LoadError)) :
    ofParse l reached = ofOutcome l (Loading.outcome reached) := by
  obtain ⟨d, failure⟩ := reached
  cases failure <;> rfl

theorem ofOutcome_eq_document {l : Loading} {outcome : Except (ParseError LoadError) Draft}
    {cause : ParseError LoadError} :
    ofOutcome l outcome = .error (.document cause) ↔ outcome = .error cause := by
  cases outcome with
  | error other => simp [ofOutcome]
  | ok d =>
      simp only [ofOutcome, ofDraft]
      split <;> simp

theorem nestsWithin_of_load {env : Environment} {options : LoadOptions} {path : FilePath}
    {skin : Skin} (hload : Skin.load env options path = .ok skin) :
    env.NestsWithin options.includeDepth (.ofPath path ⟨""⟩) := by
  obtain ⟨d, hreads, -⟩ := load_eq_ok_iff.mp hload
  exact hreads.nestsWithin

/-- Loading a skin file, in steps. For any files, however they include each other, the steps come
to an end with what loading gives, and never are more included files open than may be. A load
fails for includes nesting too deep just if it comes to an include element that names a file while
that many are open, so never if the files nest less deep. A load that succeeds has read files that
nest no deeper, so it fails if the file is on a circle of includes or leads to one. -/
theorem load_any_includes (env : Environment) (options : LoadOptions) (path : FilePath) :
    let file := Source.ofPath path ⟨""⟩
    let l : Loading := { env, base := file.directory, options }
    let stage (n : Nat) := l.step^[n] (l.enter [] 0 file l.blank)
    let limit := options.includeDepth
    (∃ n outcome, stage n = .stopped outcome ∧ Skin.load env options path = ofOutcome l outcome) ∧
    (∀ n, (stage n).includesOpen ≤ limit) ∧
    ((∃ n, (stage n).AtLimit limit) ↔
      ∃ cause, Skin.load env options path = .error (.document cause) ∧ TooDeep limit cause) ∧
    (env.NestsWithin limit file → ∀ n, ¬ (stage n).AtLimit limit) ∧
    (∀ skin, Skin.load env options path = .ok skin → env.NestsWithin limit file) ∧
    ∀ other, Relation.ReflTransGen env.Includes file other →
      Relation.TransGen env.Includes other other →
      ∀ skin, Skin.load env options path ≠ .ok skin := by
  intro file l stage limit
  have hwithin : (l.enter [] 0 file l.blank).Within limit := enter_within (by simp)
  obtain ⟨last, hlast⟩ := l.reaches_outcome file l.blank rfl
  have hload : Skin.load env options path = ofOutcome l (Loading.outcome
      (Markup.parseFile l.env.skinFile l.env.host.charset l.receiver file.path l.blank)) :=
    ofParse_eq l _
  have hlimit : (∃ n, (stage n).AtLimit limit) ↔
      ∃ cause, Skin.load env options path = .error (.document cause) ∧ TooDeep limit cause := by
    simp only [hload, ofOutcome_eq_document]
    exact exists_atLimit_iff hwithin (fun cause => enter_not_tooDeep) hlast
  refine ⟨⟨last, _, hlast, hload⟩, ?_, hlimit, ?_, ?_, ?_⟩
  · intro n
    exact (iterate_within hwithin n).includesOpen_le
  · intro hnests n hn
    obtain ⟨cause, hcause, hdeep⟩ := hlimit.mp ⟨n, hn⟩
    rw [hload, ofOutcome_eq_document] at hcause
    rcases hparse : Markup.parseFile l.env.skinFile l.env.host.charset l.receiver file.path
      l.blank with ⟨reached, failure⟩
    rw [hparse] at hcause
    cases failure with
    | none => cases hcause
    | some other =>
        cases hcause
        exact Loading.not_tooDeep_of_nestsWithin hnests hparse hdeep
  · intro skin hskin
    exact nestsWithin_of_load hskin
  · intro other hreached hcycle skin hskin
    obtain ⟨depth, hnests⟩ := (nestsWithin_of_load hskin).reached hreached
    exact hnests.not_cyclic hcycle

/-- A file that includes itself, from a skin that may include one file inside of another. -/
theorem load_any_includes_circle :
    let env := Environment.ofTexts
      [("s/a.xml", "<skin version=\"1.0\"><include path=\"b.xml\"/></skin>"),
        ("s/b.xml", "<include path=\"b.xml\"/>")]
    let options : LoadOptions := { includeDepth := 2 }
    let file := Source.ofPath ⟨"s/a.xml"⟩ ⟨""⟩
    let other : Source := ⟨⟨"s/b.xml"⟩, ⟨"s"⟩⟩
    let l : Loading := { env, base := file.directory, options }
    env.Includes file other ∧ env.Includes other other ∧
      (∀ skin, Skin.load env options ⟨"s/a.xml"⟩ ≠ .ok skin) ∧
      ∃ n, (l.step^[n] (l.enter [] 0 file l.blank)).AtLimit 2 := by
  have hfirst : (Environment.ofTexts
      [("s/a.xml", "<skin version=\"1.0\"><include path=\"b.xml\"/></skin>"),
        ("s/b.xml", "<include path=\"b.xml\"/>")]).Includes (.ofPath ⟨"s/a.xml"⟩ ⟨""⟩)
      ⟨⟨"s/b.xml"⟩, ⟨"s"⟩⟩ :=
    ⟨_, ⟨[("path", "b.xml")]⟩, 1, "b.xml", rfl, by decide +kernel, rfl, rfl⟩
  have hsecond : (Environment.ofTexts
      [("s/a.xml", "<skin version=\"1.0\"><include path=\"b.xml\"/></skin>"),
        ("s/b.xml", "<include path=\"b.xml\"/>")]).Includes ⟨⟨"s/b.xml"⟩, ⟨"s"⟩⟩
      ⟨⟨"s/b.xml"⟩, ⟨"s"⟩⟩ :=
    ⟨_, ⟨[("path", "b.xml")]⟩, 1, "b.xml", rfl, by decide +kernel, rfl, rfl⟩
  obtain ⟨-, -, hlimit, -, -, hcircle⟩ := load_any_includes _ { includeDepth := 2 } ⟨"s/a.xml"⟩
  refine ⟨hfirst, hsecond, ?_, ?_⟩
  · exact hcircle _ (.single hfirst) (.single hsecond)
  · refine hlimit.mpr ⟨_, rfl, ?_⟩
    exact .inside 1 _ (.inside 1 _ (.here 1 _))

/-- An include element without a path is refused for that first, even when no file may be included
any more. -/
theorem path_missing_beyond_limit :
    let env := Environment.ofTexts [("s/a.xml", "<skin version=\"1.0\"><include/></skin>")]
    let options : LoadOptions := { includeDepth := 0 }
    let file := Source.ofPath ⟨"s/a.xml"⟩ ⟨""⟩
    let l : Loading := { env, base := file.directory, options }
    (∃ n f d attributes, l.step^[n] (l.enter [] 0 file l.blank) = .reading [f] d ∧
      f.rest.events.head?.bind Event.include? = some attributes) ∧
    ∃ cause, Skin.load env options ⟨"s/a.xml"⟩ = .error (.document cause) ∧
      ¬ TooDeep options.includeDepth cause := by
  refine ⟨⟨1, _, _, _, rfl, rfl⟩, .refused 1 (.missingAttribute "include" "path"), rfl, ?_⟩
  intro hdeep
  cases hdeep

end Skin

end PanelSkin
