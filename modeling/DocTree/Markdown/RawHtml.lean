import DocTree.Markdown.Place

/-!
# Raw HTML

Scanners for the pieces of HTML that may stand in a text or start a block. A tag may
be broken over lines, which is why the scanners for its parts are told what to pass
over behind a line break; all others see only the source.
-/
namespace DocTree.Markdown

def isLetter (c : Char) : Bool := c.isAlpha

def blockElements : List String :=
  ["address", "article", "aside", "base", "basefont", "blockquote", "body", "caption", "center",
    "col", "colgroup", "dd", "details", "dialog", "dir", "div", "dl", "dt", "fieldset",
    "figcaption", "figure", "footer", "form", "frame", "frameset", "h1", "h2", "h3", "h4", "h5",
    "h6", "head", "header", "hr", "html", "iframe", "legend", "li", "link", "main", "menu",
    "menuitem", "nav", "noframes", "ol", "optgroup", "option", "p", "param", "search", "section",
    "summary", "table", "tbody", "td", "tfoot", "th", "thead", "title", "tr", "track", "ul"]

def literalElements : List String := ["pre", "style", "script", "textarea"]

def lower (cs : List Char) : List Char := cs.map Char.toLower

def afterIgnoringCase : List Char → List Char → Option (List Char)
  | [], cs => some cs
  | _ :: _, [] => none
  | w :: ws, c :: cs => if c.toLower = w then afterIgnoringCase ws cs else none

def after : List Char → List Char → Option (List Char)
  | [], cs => some cs
  | _ :: _, [] => none
  | w :: ws, c :: cs => if c = w then after ws cs else none

def afterFirst (w : List Char) : List Char → Option (List Char)
  | [] => after w []
  | c :: cs =>
      match after w (c :: cs) with
      | some rest => some rest
      | none => afterFirst w cs

def contains (w cs : List Char) : Bool := (afterFirst w cs).isSome

/-- The text that ends a block which starts with the given text behind its `<`, when a line
holding that text ends it. -/
def blockTerminator? (cs : List Char) : Option (List Char) :=
  match literalElements.find? fun e =>
      match afterIgnoringCase e.toList cs with
      | some (c :: _) => isLineOrBreakBlank c || c == '>'
      | some [] => true
      | none => false with
  | some e => some ('<' :: '/' :: e.toList ++ ['>'])
  | none =>
      if (after ['!', '-', '-'] cs).isSome then some ['-', '-', '>']
      else if (after ['?'] cs).isSome then some ['?', '>']
      else if (after ['!', '[', 'C', 'D', 'A', 'T', 'A', '['] cs).isSome then some [']', ']', '>']
      else
        match cs with
        | '!' :: c :: _ => if isLetter c then some ['>'] else none
        | _ => none

def startsBlockElement (cs : List Char) : Bool :=
  let cs := match cs with
    | '/' :: r => r
    | _ => cs
  let name := cs.takeWhile Char.isAlphanum
  blockElements.contains (String.ofList (lower name)) &&
    match cs.dropWhile Char.isAlphanum with
    | [] => true
    | '/' :: '>' :: _ => true
    | c :: _ => c == ' ' || c == '\t' || c == '>'

def isTagNameRest (c : Char) : Bool := c.isAlphanum || c == '-'

def isAttributeStart (c : Char) : Bool := isLetter c || c == '_' || c == ':'

def isAttributeRest (c : Char) : Bool :=
  c.isAlphanum || c == '_' || c == ':' || c == '.' || c == '-'

def isBareValue (c : Char) : Bool :=
  !(c == ' ' || isLineEnd c || c == '"' || c == '\'' || c == '=' || c == '<' || c == '>' ||
    c == '`')

structure TagPart where
  done : List Char
  place : Place

def TagPart.pass (n : Nat) (t : TagPart) : TagPart :=
  ⟨(t.place.rest.take n).reverse ++ t.done, t.place.skip n⟩

def TagPart.passBreak? (enter : Place → Option Place) (t : TagPart) : Option TagPart :=
  let next := t.pass ((lineBreak? t.place.rest).getD 0)
  (enter next.place).map fun p => { next with place := p }

def TagPart.passBlanks? (enter : Place → Option Place) : Nat → TagPart → Option TagPart
  | 0, t => some t
  | fuel + 1, t =>
      match t.place.rest with
      | [] => some t
      | c :: _ =>
          if isLineBlank c then TagPart.passBlanks? enter fuel (t.pass 1)
          else if isLineEnd c then
            (t.passBreak? enter).bind (TagPart.passBlanks? enter fuel)
          else some t

def TagPart.passQuoted? (enter : Place → Option Place) (quote : Char) :
    Nat → TagPart → Option TagPart
  | 0, _ => none
  | fuel + 1, t =>
      match t.place.rest with
      | [] => none
      | c :: _ =>
          if c = quote then some (t.pass 1)
          else if isLineEnd c then
            (t.passBreak? enter).bind (TagPart.passQuoted? enter quote fuel)
          else TagPart.passQuoted? enter quote fuel (t.pass 1)

def TagPart.passValue? (enter : Place → Option Place) (fuel : Nat) (t : TagPart) :
    Option TagPart :=
  match t.place.rest with
  | [] => none
  | c :: _ =>
      if c = '"' ∨ c = '\'' then (t.pass 1).passQuoted? enter c fuel
      else if isBareValue c then some (t.pass (t.place.rest.takeWhile isBareValue).length)
      else none

def TagPart.passAttribute? (enter : Place → Option Place) (fuel : Nat) (t : TagPart) :
    Option TagPart :=
  match t.place.rest with
  | [] => none
  | c :: r =>
      if isAttributeStart c then do
        let named := t.pass ((r.takeWhile isAttributeRest).length + 1)
        let spaced ← named.passBlanks? enter fuel
        if spaced.place.rest.head? == some '=' then
          (← (spaced.pass 1).passBlanks? enter fuel).passValue? enter fuel
        else some named
      else none

def TagPart.passAttributes? (enter : Place → Option Place) : Nat → TagPart → Option TagPart
  | 0, _ => none
  | fuel + 1, t => do
      let spaced ← t.passBlanks? enter fuel
      match spaced.place.rest with
      | [] => none
      | c :: _ =>
          if c = '/' ∨ c = '>' then some spaced
          else if spaced.place.offset = t.place.offset then none
          else TagPart.passAttributes? enter fuel (← spaced.passAttribute? enter fuel)

def tag? (enter : Place → Option Place) (fuel : Nat) (p : Place) : Option TagPart :=
  let named (t : TagPart) : Option TagPart :=
    match t.place.rest with
    | c :: r => if isLetter c then some (t.pass ((r.takeWhile isTagNameRest).length + 1)) else none
    | [] => none
  let ended (t : TagPart) : Option TagPart :=
    if t.place.rest.head? == some '>' then some (t.pass 1) else none
  let start := (TagPart.mk [] p).pass 1
  if start.place.rest.head? == some '/' then do
    let t ← named (start.pass 1)
    ended (t.pass (t.place.rest.takeWhile isLineBlank).length)
  else do
    let t ← (← named start).passAttributes? enter fuel
    ended (if t.place.rest.head? == some '/' then t.pass 1 else t)

def lengthTo? (w : List Char) (cs : List Char) : Option Nat :=
  (afterFirst w cs).map fun rest => cs.length - rest.length

/-- How many characters a comment, a processing instruction, a declaration or a character section
takes, given from behind its `<`. A character section ends where its first closing brackets do,
and an angle bracket has to follow these. -/
def declarationLength? (cs : List Char) : Option Nat :=
  match cs with
  | '?' :: r => (lengthTo? ['?', '>'] r).map (· + 1)
  | '!' :: '-' :: '-' :: '>' :: _ => some 4
  | '!' :: '-' :: '-' :: '-' :: '>' :: _ => some 5
  | '!' :: '-' :: '-' :: r => (lengthTo? ['-', '-', '>'] r).map (· + 3)
  | '!' :: '[' :: r => do
      let body ← after ['C', 'D', 'A', 'T', 'A', '['] r
      let brackets := body.dropWhile (· != ']')
      let behind := brackets.dropWhile (· == ']')
      if brackets.isEmpty ∨ behind.head? ≠ some '>' then none
      else some (cs.length - behind.length + 1)
  | '!' :: c :: r => if isLetter c then (lengthTo? ['>'] r).map (· + 2) else none
  | _ => none

def isLoneTag (cs : List Char) : Bool :=
  match tag? (fun _ => none) (cs.length + 1) (.ofText cs) with
  | some t => isBlankLine t.place.rest
  | none => false

end DocTree.Markdown
