import DocTree.Markdown.Cursor
import DocTree.Markdown.Emphasis
import DocTree.Markdown.Link
import DocTree.Markdown.RawHtml

/-!
# Inline elements

The tokens of a text are read once from left to right. Code, HTML and addresses in
angle brackets are taken where they start; a closing bracket looks back for the
bracket that it closes and makes a link or an image of what stands between. What
such an element takes of the source may stop inside a later token, of which only
the rest is left. Emphasis is read last, in the text of each link and then in the
whole.
-/
namespace DocTree.Markdown

inductive Piece (α : Type) where
  | token (t : Token)
  | block (extent : Extent) (value : α)

namespace Piece

variable {α : Type}

def extent : Piece α → Extent
  | .token t => ⟨t.place.offset, t.stop⟩
  | .block e _ => e

def startAt (offset : Nat) : Piece α → Piece α
  | .token t => .token { t with place := t.place.atLeast offset }
  | .block e value => .block { e with start := max e.start offset } value

def behind (offset : Nat) (ps : List (Piece α)) : List (Piece α) :=
  match ps.dropWhile fun p => p.extent.stop ≤ offset with
  | p :: ps => p.startAt offset :: ps
  | [] => []

def unname (offset : Nat) : List (Piece α) → List (Piece α)
  | [] => []
  | .token t :: ps =>
      if t.stop ≤ offset then .token t :: unname offset ps
      else .token { t with kind := .closing false } :: ps
  | .block e value :: ps =>
      if e.stop ≤ offset then .block e value :: unname offset ps else .block e value :: ps

def titleBreak? (offset : Nat) (ps : List (Piece α)) : Option Nat :=
  match ps.find? fun p => offset + 1 < p.extent.stop with
  | some p => if offset < p.extent.start then some p.extent.start else none
  | none => none

def closingBackticks? (n : Nat) : List (Piece α) → Option (Extent × List (Piece α))
  | [] => none
  | .block _ _ :: _ => none
  | .token t :: ps =>
      match t.kind with
      | .backticks m _ =>
          if m = n then some (⟨t.place.offset, t.stop⟩, ps) else closingBackticks? n ps
      | _ => closingBackticks? n ps

end Piece

structure Setting where
  definitions : List Definition
  containers : List Container
  inCell : Bool
  stop : Nat

def address? (cs : List Char) : Option (List Char) :=
  let scheme := cs.takeWhile fun c => c.isAlphanum || c == '.' || c == '-' || c == '+'
  match cs.head?, cs.drop scheme.length with
  | some c, ':' :: r =>
      let body := r.takeWhile fun c => 0x20 < c.toNat && c != '<' && c != '>'
      if isLetter c ∧ 2 ≤ scheme.length ∧ scheme.length ≤ 32 ∧
          (r.drop body.length).head? = some '>' then
        some (scheme ++ ':' :: body)
      else none
  | _, _ => none

def isMailboxChar (c : Char) : Bool :=
  c.isAlphanum || ".!#$%&'*+/=?^_`\x7b|\x7d~-".toList.contains c

def host? : Nat → List Char → Option (List Char)
  | 0, _ => none
  | fuel + 1, cs =>
      let label := cs.takeWhile fun c => c.isAlphanum || c == '-'
      if label.isEmpty ∨ 63 < label.length ∨ label.head? = some '-' ∨ label.getLast? = some '-' then
        none
      else
        match cs.drop label.length with
        | '.' :: r => host? fuel r
        | r => some r

def mailAddress? (cs : List Char) : Option (List Char) :=
  let mailbox := cs.takeWhile isMailboxChar
  match cs.drop mailbox.length with
  | '@' :: r =>
      match host? (r.length + 1) r with
      | some ('>' :: rest) =>
          if mailbox.isEmpty then none else some (cs.take (cs.length - rest.length - 1))
      | _ => none
  | _ => none

def trimCode (cs : List Char) : List Char :=
  if cs.head? == some ' ' && cs.getLast? == some ' ' && !cs.all (· == ' ') then
    (cs.drop 1).dropLast
  else cs

namespace Setting

variable {α : Type}

def enter (s : Setting) (p : Place) : Option Place := some (passContainers s.containers p)

def fuel (s : Setting) (p : Place) : Nat := s.stop - p.offset + 1

def define? (s : Setting) (label : List Char) : Option Definition :=
  s.definitions.find? fun d => d.label == label

/-- The content of code as written up to the given offset. A character that ends a line is a space,
and a backslash hides a column mark from the table. -/
def codeText (s : Setting) (stop : Nat) : Nat → Place → List Char
  | 0, _ => []
  | fuel + 1, p =>
      match p.rest with
      | [] => []
      | c :: r =>
          if stop ≤ p.offset then []
          else if isLineEnd c then
            ' ' :: s.codeText stop fuel (passContainers s.containers (p.skip 1))
          else if s.inCell ∧ c = '\\' ∧ r.head? = some '|' then
            '|' :: s.codeText stop fuel (p.skip 2)
          else c :: s.codeText stop fuel (p.skip 1)

def angle? (s : Setting) (bracket next : Place) : Option (Inline × Nat) :=
  let found : Option (Inline × Nat) :=
    match address? next.rest with
    | some a => some (.link a [] [.text a], next.offset + a.length + 1)
    | none =>
        match mailAddress? next.rest with
        | some a =>
            some (.link ("mailto:".toList ++ a) [] [.text a], next.offset + a.length + 1)
        | none =>
            match declarationLength? next.rest with
            | some n => some (.html (bracket.upTo (next.offset + n)), next.offset + n)
            | none =>
                (tag? s.enter (s.fuel bracket) (bracket.atLeast (next.offset - 1))).map fun t =>
                  (.html t.done.reverse, t.place.offset)
  found.filter fun r => r.2 ≤ s.stop

def passSeparator (s : Setting) (p : Place) : Place :=
  let q := passLineBlanks p
  match lineBreak? q.rest with
  | none => q
  | some n => passLineBlanks (passContainers s.containers (q.skip n))

def titleBody? (s : Setting) (opening closing : Char) (ps : List (Piece α)) :
    Nat → List Char → Place → Option Scanned
  | 0, _, _ => none
  | fuel + 1, done, p =>
      match p.rest with
      | [] => none
      | c :: r =>
          if c = closing then some (done.reverse, p.skip 1)
          else if c = opening then none
          else
            let next := if isLineEnd c then Piece.titleBreak? p.offset ps else none
            match next, reference? (c :: r) with
            | some start, _ => s.titleBody? opening closing ps fuel ('\n' :: done) (p.atLeast start)
            | none, some (x, n) =>
                s.titleBody? opening closing ps fuel (x.reverse ++ done) (p.skip n)
            | none, none =>
                let hidden := if startsHiddenMark s.inCell (c :: r) then 2 else 0
                match (c :: r).drop hidden with
                | y :: x :: _ =>
                    if c = '\\' ∧ isAsciiPunctuation x then
                      s.titleBody? opening closing ps fuel (x :: done) (p.skip (hidden + 2))
                    else s.titleBody? opening closing ps fuel (y :: done) (p.skip (hidden + 1))
                | y => s.titleBody? opening closing ps fuel (y ++ done) (p.skip (hidden + 1))

def title? (s : Setting) (ps : List (Piece α)) (p : Place) : Option Scanned := do
  let c ← p.rest.head?
  s.titleBody? c (← titleEnd? c) ps (s.fuel p) [] (p.skip 1)

def target? (s : Setting) (ps : List (Piece α)) (p : Place) :
    Option (List Char × List Char × Nat) := do
  if p.rest.head? ≠ some '(' then none
  let (destination, p) ← destination? 32 (s.passSeparator (p.skip 1))
  let p := s.passSeparator p
  let (title, p) := match s.title? ps p with
    | some (title, q) => (title, s.passSeparator q)
    | none => ([], p)
  if p.rest.head? = some ')' ∧ p.offset < s.stop then
    some (unescaped s.inCell destination, title, p.offset + 1)
  else none

end Setting

/-- An opening bracket that is not closed yet, and what stands behind it, last first. It is active
as long as no link has been made behind it. -/
structure Opening where
  image : Bool
  active : Bool
  place : Place
  content : List Node

def Opening.toNode (o : Opening) : Node := .ofText (if o.image then ['!', '['] else ['['])

structure Brackets where
  base : List Node
  openings : List Opening

namespace Brackets

def empty : Brackets := ⟨[], []⟩

def push (ns : List Node) (b : Brackets) : Brackets :=
  match b.openings with
  | [] => { b with base := ns ++ b.base }
  | o :: os => { b with openings := { o with content := ns ++ o.content } :: os }

def deactivate (b : Brackets) : Brackets :=
  { b with openings := b.openings.map fun o => { o with active := o.active && o.image } }

def finish (b : Brackets) : List Inline :=
  let nodes := b.openings.flatMap (fun o => o.content ++ [o.toNode]) ++ b.base
  readEmphasis nodes.reverse

end Brackets

namespace Setting

variable {α : Type}

/-- The definition that a closing bracket with the given pieces behind it asks for, and the pieces
behind the link. Where a label follows that names no definition, what stands before it names none
either. -/
def lookUp (s : Setting) (opening : Opening) (bracket : Token) (named : Bool)
    (ps : List (Piece α)) : Option Definition × List (Piece α) :=
  let own (rest : List (Piece α)) : Option Definition × List (Piece α) :=
    let found : Option Definition :=
      match label? s.inCell s.enter (s.fuel opening.place) opening.place with
      | some (label, q) => if named ∧ q.offset = bracket.stop then s.define? label else none
      | none => none
    (found, if found.isSome then rest else ps)
  match ps with
  | [] => own []
  | p :: more =>
      let next := bracket.place.atLeast p.extent.start
      if next.rest.take 2 = ['[', ']'] ∧ next.offset + 2 ≤ s.stop then own (more.drop 1)
      else
        match label? s.inCell s.enter (s.fuel next) next with
        | some (label, q) =>
            if s.stop < q.offset then own ps
            else
              match s.define? label with
              | some d => (some d, (ps.dropWhile fun p => p.extent.stop < q.offset).drop 1)
              | none => (none, Piece.unname (q.offset - 1) ps)
        | none => own ps

def close (s : Setting) (bracket : Token) (named : Bool) (ps : List (Piece α)) (b : Brackets) :
    Brackets × List (Piece α) :=
  let literal : Node := .ofText bracket.source
  match b.openings with
  | [] => (b.push [literal], ps)
  | o :: os =>
      let outer : Brackets := { b with openings := os }
      let unmatched : Brackets := outer.push (literal :: o.content ++ [o.toNode])
      let made (destination title : List Char) : Brackets :=
        let content := readEmphasis o.content.reverse
        if o.image then outer.push [.element (.image destination title content)]
        else outer.deactivate.push [.element (.link destination title content)]
      if !o.active then (unmatched, ps)
      else
        let source := bracket.place.atLeast bracket.stop
        match s.target? ps source with
        | some (destination, title, stop) => (made destination title, Piece.behind stop ps)
        | none =>
            match s.lookUp o bracket named ps with
            | (some d, ps) => (made d.destination d.title, ps)
            | (none, ps) => (unmatched, ps)

def backticks (s : Setting) (t : Token) (count : Nat) (escaped : Bool) (ps : List (Piece α)) :
    List Node × List (Piece α) :=
  let n := if escaped then count - 1 else count
  let first : List Node := if escaped then [.ofText ['`']] else []
  match if n = 0 then none else Piece.closingBackticks? n ps with
  | some (closing, rest) =>
      let start := t.place.atLeast t.stop
      (.element (.code (trimCode (s.codeText closing.start (s.fuel start) start))) :: first, rest)
  | none => ([.ofText t.source], ps)

def read (s : Setting) (t : Token) (ps : List (Piece α)) (b : Brackets) :
    Brackets × List (Piece α) :=
  match t.kind with
  | .text => (b.push [.ofText t.source], ps)
  | .reference x => (b.push [.ofText x], ps)
  | .softBreak => (b.push [.element .softBreak], ps)
  | .hardBreak false => (b.push [.element .hardBreak], ps)
  | .hardBreak true => (b.push [.backslash], ps)
  | .marks mark n canOpen canClose =>
      (b.push [.run ⟨mark, n, n, canOpen, canClose, t.source.drop n⟩], ps)
  | .opening image =>
      let place := t.place.skip (if image then 1 else 0)
      ({ b with openings := ⟨image, true, place, []⟩ :: b.openings }, ps)
  | .closing named => s.close t named ps b
  | .backticks n escaped =>
      let (ns, ps) := s.backticks t n escaped ps
      (b.push ns, ps)
  | .angle =>
      let next := ps.head?.map fun p => t.place.atLeast p.extent.start
      match next.bind (s.angle? t.place) with
      | some (i, stop) => (b.push [.element i], Piece.behind stop ps)
      | none => (b.push [.ofText t.source], ps)

def resolve (s : Setting) : Nat → List (Piece α) → Brackets → List (Inline ⊕ α)
  | 0, _, b => b.finish.map .inl
  | _, [], b => b.finish.map .inl
  | fuel + 1, .block _ value :: ps, b =>
      b.finish.map .inl ++ .inr value :: s.resolve fuel ps .empty
  | fuel + 1, .token t :: ps, b =>
      let (b, ps) := s.read t ps b
      s.resolve fuel ps b

def parts (s : Setting) (ps : List (Piece α)) : List (Inline ⊕ α) :=
  s.resolve (ps.length + 1) ps .empty

def inlines (s : Setting) (ts : List Token) : List Inline :=
  let pieces : List (Piece Empty) := ts.map .token
  (s.parts pieces).filterMap Sum.getLeft?

end Setting

end DocTree.Markdown
