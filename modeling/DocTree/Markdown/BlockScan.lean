import DocTree.Markdown.LineTokens
import DocTree.Markdown.LinkDefinition

/-!
# Blocks

A document is read block by block. The state holds the containers that are open,
innermost first. The line that a block starts in first has to continue the
containers; what is left of it may open new ones, and the rest of it and the lines
that follow are read as one block without children. A paragraph also goes on in a
line that does not continue its containers, unless the line starts something.
-/
namespace DocTree.Markdown

inductive Frame where
  | quote (start : Nat) (done : List Block)
  | list (start : Nat) (mark : Char) (first : Option Nat) (tight : Bool) (items : List Item)
  | item (indent : Nat) (done : List Block)

def Frame.container? : Frame → Option Container
  | .quote _ _ => some .quote
  | .list _ _ _ _ _ => none
  | .item indent _ => some (.item indent)

structure State where
  frames : List Frame
  done : List Block
  blankBefore : Bool
  emptyItem : Option Nat
  definitions : List Definition

namespace State

def initial : State := ⟨[], [], false, none, []⟩

def containers (s : State) : List Container := s.frames.reverse.filterMap Frame.container?

def add (b : Block) (s : State) : State :=
  match s.frames with
  | .quote start done :: fs => { s with frames := .quote start (b :: done) :: fs }
  | .item indent done :: fs => { s with frames := .item indent (b :: done) :: fs }
  | _ => { s with done := b :: s.done }

def pop (stop : Nat) (s : State) : State :=
  match s.frames with
  | [] => s
  | .quote start done :: fs => { s with frames := fs }.add (.quote ⟨start, stop⟩ done.reverse)
  | .item indent done :: .list start mark first tight items :: fs =>
      let item : Item := .mk indent stop done.reverse
      { s with frames := .list start mark first tight (item :: items) :: fs }
  | .item _ done :: fs => { s with frames := fs, done := done ++ s.done }
  | .list start _ first tight items :: fs =>
      let s := { s with frames := fs, emptyItem := if tight then none else s.emptyItem }
      s.add (.list ⟨start, stop⟩ first tight items.reverse)

def popTo (n stop : Nat) : List Frame → State → State
  | [], s => s
  | f :: fs, s =>
      if ((f :: fs).filterMap Frame.container?).length ≤ n then s else popTo n stop fs (s.pop stop)

def popAll (stop : Nat) : List Frame → State → State
  | [], s => s
  | _ :: fs, s => popAll stop fs (s.pop stop)

def finishEmptyItem (s : State) : State :=
  let s' := match s.emptyItem, s.frames with
    | some stop, .item _ _ :: _ => if s.blankBefore then s.pop stop else s
    | _, _ => s
  { s' with emptyItem := none }

/-- Makes ready for a block that is not an item of the innermost list: that list ends, and a blank
line before the block makes the list around it loose. -/
def finishList (stop : Nat) (s : State) : State :=
  let s := s.finishEmptyItem
  let s := match s.frames with
    | .list _ _ _ _ _ :: _ => s.pop stop
    | _ => s
  if s.blankBefore then
    let frames := match s.frames with
      | f :: .list start mark first _ items :: fs => f :: .list start mark first false items :: fs
      | fs => fs
    { s with frames, blankBefore := false }
  else s

def continueList (start : Nat) (mark : Char) (number : Option Nat) (s : State) : State :=
  let s := s.finishEmptyItem
  let opened (s : State) : State :=
    { s with frames := .list start mark number true [] :: s.frames, blankBefore := false }
  match s.frames with
  | [] => opened s
  | .list begun m first tight items :: fs =>
      if m = mark then
        { s with
          frames := .list begun m first (tight && !s.blankBefore) items :: fs
          blankBefore := false }
      else opened (s.finishList start)
  | _ => opened (s.finishList start)

def openContainers (lineStart : Nat) : Nat → Cursor → State → State × Cursor × Bool
  | 0, c, s => (s, c, false)
  | fuel + 1, c, s =>
      let (outer, inner) := c.passSpaces 4
      let line := inner.place.line
      if 4 ≤ outer then (s, c, false)
      else
        match itemMark? line, isRule line with
        | some m, false =>
            let one := ((inner.pass m.width).passSpaces 1).2
            let s := s.continueList (inner.place.offset - outer) m.mark m.number
            let item (indent : Nat) : State := { s with frames := .item indent [] :: s.frames }
            let width := outer + m.width + 1
            if isBlankLine m.rest then
              let next := (inner.place.skip m.width).pastBlankLine
              ({ item width with emptyItem := some next.offset }, one, true)
            else
              let (more, text) := one.passSpaces 4
              if more < 4 then openContainers lineStart fuel text (item (width + more))
              else openContainers lineStart fuel one (item width)
        | _, _ =>
            if inner.place.rest.head? == some '>' then
              let s := s.finishList lineStart
              openContainers lineStart fuel ((inner.pass 1).passSpaces 1).2
                { s with frames := .quote inner.place.offset [] :: s.frames }
            else (s, c, false)

def blankLine (s : State) : State :=
  match s.frames with
  | .quote _ _ :: _ => s
  | .item indent done :: fs =>
      { s with
        frames := .item (if s.emptyItem.isSome then 0 else indent) done :: fs
        blankBefore := true }
  | _ => { s with blankBefore := true }

structure Paragraph where
  tokens : List Token
  level : Option Nat
  next : Place

def restoreBackslash (lineBreak : Token) (ts : List Token) : List Token :=
  let start := lineBreak.place.offset
  match lineBreak.kind with
  | .hardBreak true => Token.addText (Place.mk start ['\\']) (start + 1) ts
  | _ => ts

def readParagraph (ks : List Container) : Nat → Place → Place → List Token → Paragraph
  | 0, _, p, ts => ⟨ts, none, p⟩
  | fuel + 1, line, p, ts =>
      let lead := line.upTo p.offset
      let scanned := scanLine false lead.getLast? p ts
      match scanned.break? p (countLast isLineBlank lead) with
      | none => ⟨scanned.trimmed, none, scanned.here⟩
      | some (ts, lineBreak, next) =>
          let (continued, c) := enterLine ks next
          let (n, inner) := c.passSpaces 4
          let q := inner.place
          let level := if n < 4 ∧ continued then underlineLevel? q.line else none
          if level.isSome then ⟨restoreBackslash lineBreak ts, level, q.nextLine⟩
          else if n < 4 ∧ interruptsParagraph ks continued q then
            ⟨restoreBackslash lineBreak ts, none, next⟩
          else
            let q := inner.passIndent
            if q.line.isEmpty then ⟨restoreBackslash lineBreak ts, none, next⟩
            else readParagraph ks fuel next q (lineBreak :: ts)

def readCells : Nat → Option Char → Place → List Cell × Place
  | 0, _, p => ([], p)
  | fuel + 1, before, p =>
      let text := passLineBlanks (if p.rest.head? == some '|' then p.skip 1 else p)
      if (lineBreak? text.rest).isSome then ([], text.pastBreak)
      else
        let before := if text.offset = p.offset then before else none
        let scanned := scanLine true before text []
        let r := readCells fuel none scanned.here
        (⟨scanned.trimmed.reverse, scanned.here.offset⟩ :: r.1, r.2)

def readRow (columns : Nat) (before : Option Char) (p : Place) : List Cell × Place :=
  let (row, next) := readCells (p.line.length + 1) before p
  let missing : List Cell := List.replicate (columns - row.length) ⟨[], next.offset⟩
  ((row ++ missing).take columns, next)

/-- The rows of a table, and the place behind them. A line without a cell is no row. -/
def readRows (ks : List Container) (columns : Nat) : Nat → Place → List (List Cell) × Place
  | 0, p => ([], p)
  | fuel + 1, p =>
      let (continued, c) := enterLine ks p
      let q := c.passIndent
      let before := (p.upTo q.offset).getLast?
      if !continued || interrupts true true q.rest || (readCells 2 before q).1.isEmpty then ([], p)
      else
        let (row, next) := readRow columns before q
        let r := readRows ks columns fuel next
        (row :: r.1, r.2)

def keptLine (line : List Char) : List Char :=
  match line.reverse with
  | c :: '\r' :: r => (c :: r).reverse
  | _ => line

structure Kept where
  text : List Char
  stop : Nat
  next : Place

def Kept.after (text : List Char) (k : Kept) : Kept := { k with text := text ++ k.text }

def readFenced (ks : List Container) (mark : Char) (length indent : Nat) : Nat → Place → Kept
  | 0, p => ⟨[], p.offset, p⟩
  | fuel + 1, p =>
      let (continued, c) := enterLine ks p
      let inner := (c.passSpaces indent).2
      let (n, close) := inner.passSpaces (4 - indent)
      let closing := if n < 4 - indent then closingFence? mark length close.place.rest else none
      if !continued then ⟨[], p.offset, p⟩
      else
        match closing with
        | some m =>
            let stop := close.place.skip m
            ⟨[], stop.offset, stop.pastBlankLine⟩
        | none =>
            let line := inner.place.literalLine
            (readFenced ks mark length indent fuel (inner.place.skip line.length)).after
              (inner.padding ++ keptLine line)

def readIndented (ks : List Container) : Nat → Cursor → Kept × Bool
  | 0, c => (⟨[], c.place.offset, c.place⟩, false)
  | fuel + 1, c =>
      let line := c.place.literalLine
      let blank := (blankLine? c.place.rest).isSome
      let next := c.place.skip line.length
      let (continued, inner) := enterLine ks next
      let (n, text) := inner.passSpaces 4
      let more : Kept × Bool :=
        if continued ∧ (n = 4 ∨ text.atEnd) ∧ !text.place.rest.isEmpty then
          readIndented ks fuel text
        else (⟨[], 0, next⟩, blank)
      if blank ∧ more.1.text.isEmpty then ({ more.1 with text := [], stop := 0 }, more.2)
      else
        ((Kept.mk more.1.text (max more.1.stop next.offset) more.1.next).after
          (c.padding ++ keptLine line), more.2)

def readHtml (ks : List Container) (terminator : Option (List Char)) :
    Nat → List Char → Place → Kept
  | 0, _, p => ⟨[], p.offset, p⟩
  | fuel + 1, padding, p =>
      let line := p.literalLine
      let next := p.skip line.length
      let (continued, c) := enterLine ks next
      let kept := padding ++ keptLine line
      let ended := match terminator with
        | some t => contains t line
        | none => c.atEnd
      if !continued || ended then ⟨kept, next.offset, next⟩
      else if c.place.rest.isEmpty ∨ (terminator.isNone ∧ (blankLine? c.place.rest).isSome) then
        ⟨kept, c.place.offset, next⟩
      else (readHtml ks terminator fuel c.padding c.place).after kept

def cutHeading (source : List Char) (start : Nat) (ts : List Token) : List Token :=
  let trimmed := source.reverse.dropWhile fun c => c == ' ' || isLineEnd c
  let bare := trimmed.dropWhile (· == '#')
  let text := match bare with
    | [] => []
    | c :: _ => if c = ' ' then bare.dropWhile (· == ' ') else trimmed
  match ts with
  | [] => []
  | t :: more => { t with stop := start + text.length } :: more

def readHeading (p : Place) : List Token × Place :=
  if (lineBreak? p.rest).isSome then ([], p.pastBreak)
  else
    let text := passLineBlanks p
    let scanned := scanLine false none text []
    match scanned.break? text (text.offset - p.offset) with
    | none =>
        (cutHeading (text.upTo scanned.here.offset) text.offset scanned.trimmed, scanned.here)
    | some (ts, lineBreak, next) =>
        let ts := restoreBackslash lineBreak ts
        (cutHeading (text.upTo next.offset) text.offset ts, next)

def readText (fuel : Nat) (line p : Place) (s : State) : State × Place :=
  let ks := s.containers
  let escaped := countLast (· == '\\') p.line % 2 = 1 && !p.nextLine.rest.isEmpty
  match if escaped then none else tableAt? ks p with
  | some (alignments, body) =>
      let (header, _) := readRow alignments.length (line.upTo p.offset).getLast? p
      let (rows, next) := readRows ks alignments.length fuel body
      (s.add (.table ⟨p.offset, next.offset⟩ alignments header rows), next)
  | none =>
      let text := readParagraph ks fuel line p []
      let extent : Extent := ⟨p.offset, text.next.offset⟩
      let tokens := text.tokens.reverse
      match text.level with
      | some level => (s.add (.heading extent level tokens), text.next)
      | none => (s.add (.paragraph extent tokens), text.next)

/-- Reads definitions and the text behind them. A definition is like the start of a paragraph: what
follows it in the next line, unless that line starts something else, belongs to it. -/
def readDefinitions (size : Nat) : Nat → Place → Place → State → State × Place
  | 0, _, p, s => (s, p)
  | fuel + 1, line, p, s =>
      match definition? s.containers (size - p.offset) p with
      | none => readText (size - p.offset + 1) line p (s.finishList line.offset)
      | some (d, q) =>
          let s := { s with definitions := s.definitions ++ [d] }
          let next := q.pastBlankLine
          let (continued, c) := enterLine s.containers next
          let (n, inner) := c.passSpaces 4
          let text := inner.passIndent
          if text.line.isEmpty ∨
              (n < 4 ∧ interruptsParagraph s.containers continued inner.place) then
            (s.finishList line.offset, next)
          else readDefinitions size fuel next text s

def readLeaf (size : Nat) (line : Place) (c : Cursor) (s : State) : State × Place :=
  let fuel := size - line.offset + 1
  let ks := s.containers
  let (indent, inner) := c.passSpaces 4
  let p := inner.place
  let ended := s.finishList line.offset
  if 4 ≤ indent then
    let (kept, blank) := readIndented ks fuel inner
    let block := Block.code ⟨p.offset, kept.stop⟩ none kept.text
    ({ ended.add block with blankBefore := blank }, kept.next)
  else
    let html (terminator : Option (List Char)) : State × Place :=
      let padding := List.replicate (max c.pending indent) ' '
      let kept := readHtml ks terminator fuel padding p
      (ended.add (.html ⟨p.offset, kept.stop⟩ kept.text), kept.next)
    let plain (_ : Unit) : State × Place :=
      if isRule p.line then
        (ended.add (.rule ⟨p.offset, p.nextLine.offset⟩), p.nextLine)
      else
        match headingLevel? p.line, fence? p.rest with
        | some (level, _), _ =>
            let (ts, next) := readHeading (p.skip level)
            (ended.add (.heading ⟨p.offset, next.offset⟩ level ts.reverse), next)
        | none, some (mark, n) =>
            let opening := p.literalLine
            let info := ((opening.drop n).dropWhile isLineBlank).reverse
            let info := (info.dropWhile isLineOrBreakBlank).reverse
            let kept := readFenced ks mark n indent fuel (p.skip opening.length)
            let block : Block :=
              .code ⟨p.offset, kept.stop⟩ (some (unescaped false info)) kept.text
            (ended.add block, kept.next)
        | none, none => readDefinitions size fuel line p s
    match p.line with
    | '<' :: r =>
        match blockTerminator? r with
        | some t => html (some t)
        | none => if startsBlockElement r || isLoneTag ('<' :: r) then html none else plain ()
    | _ => plain ()

def readBlock (size : Nat) (line : Place) (s : State) : State × Place :=
  let (n, c) := matchContainers s.containers (.ofPlace line)
  let s := popTo n line.offset s.frames s
  let (s, c, empty) := openContainers line.offset (line.line.length + 1) c s
  if empty then (s, c.place.pastBlankLine)
  else
    match blankLine? c.place.rest with
    | some n => (s.blankLine, c.place.skip n)
    | none => readLeaf size line c s

def readFrom (size : Nat) : Nat → Place → State → State
  | 0, _, s => s
  | fuel + 1, p, s =>
      if p.rest.isEmpty then popAll p.offset s.frames s
      else
        let (s, next) := s.readBlock size p
        readFrom size fuel next s

end State

def readBlocks (cs : List Char) : List Block × List Definition :=
  let size := cs.length
  let s := State.readFrom size (size + 1) (.ofText cs) .initial
  (s.done.reverse, s.definitions)

end DocTree.Markdown
