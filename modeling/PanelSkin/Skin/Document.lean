import PanelSkin.Skin.Element

/-!
Skin files. The events of a file are taken one by one into the draft of a skin; an `include`
element is replaced by the events of the file it names, which is looked for in the directory of
the file that includes it.
-/

namespace PanelSkin

namespace Loading

/-- Finishes the innermost widget: its text is read as a template, and it joins its parent. -/
def close (l : Loading) : Reading Unit := do
  let d ← get
  match d.opened with
  | [] => return
  | widget :: outer =>
    set { d with opened := outer, text := "" }
    let text := String.ofList (Text.trim d.text.toList)
    let finished ← match widget with
      | .leaf style (.text box) => do
        let text ← l.readTemplate text
        pure (Widget.leaf style (.text { box with text }))
      | .leaf style (.button button) => do
        let text ← l.readTemplate text
        pure (Widget.leaf style (.button { button with text }))
      | .list _ [] _ => throw .missingItem
      | _ => pure widget
    match (← get).attach finished with
    | .ok d => set d
    | .error cause => throw cause

/-- Takes the start of an element other than `include`. The header comes first, and only in the
outermost file. -/
def start (l : Loading) (included : Bool) (e : Element) : Reading Unit := do
  let d ← get
  if e.tag = "skin" then
    if d.header.isSome || included then throw (.unexpectedTag "skin" .afterHeader)
    else e.readHeader l
  else if d.header.isNone then throw (.unexpectedTag e.tag .beforeHeader)
  else if e.tag = "variable" ∨ e.tag = "font" ∨ e.tag = "display" then
    if d.display.isSome then throw (.unexpectedTag e.tag .insideDisplay)
    else if e.tag = "variable" then e.declareVariable l
    else if e.tag = "font" then e.declareFont l
    else
      let id ← e.required "id"
      modify ({ · with display := some { id } })
  else if d.display.isNone then throw (.unexpectedTag e.tag .outsideDisplay)
  else
    let widget ← e.widget l
    modify (·.push widget)

def finish (l : Loading) (tag : String) : Reading Unit :=
  if tag = "include" ∨ tag = "skin" ∨ tag = "variable" ∨ tag = "font" then pure ()
  else if tag = "display" then modify Draft.finishDisplay
  else l.close

/-- Takes an event into a draft, in a file in directory `dir`; included files can nest `depth`
deeper. -/
def receive (l : Loading) (depth : Nat) (dir : FilePath) :
    Markup.Receiver Draft LoadError := fun event d =>
  match event with
  | .text content _ => .ok (d.addText content)
  | .finish tag _ => ((l.finish tag).run d).map (·.2)
  | .start tag attributes _ =>
    if tag = "include" then
      match attributes.get? "path" with
      | none => .error (.missingAttribute "include" "path")
      | some file =>
        let path := dir.join ⟨file⟩
        match depth with
        | 0 => .error (.includeDepth path l.options.includeDepth)
        | depth + 1 =>
          let receiver := l.receive depth (path.parent?.getD dir)
          match Markup.parseFile l.env.skinFile l.env.host.charset receiver path d with
          | (d, none) => .ok d
          | (_, some cause) => .error (.inInclude path cause)
    else
      let included := depth != l.options.includeDepth
      ((l.start included { tag, attributes }).run d).map (·.2)

/-- Takes an event of the outermost file. -/
def receiver (l : Loading) : Markup.Receiver Draft LoadError :=
  l.receive l.options.includeDepth l.base

end Loading

end PanelSkin
