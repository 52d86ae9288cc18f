import DocTree.Markdown.LineStart
import DocTree.Markdown.Link

/-!
# Link definitions

A definition stands where a paragraph may start. Like a paragraph it goes on in the
next line, also in one that does not continue the containers, unless that line
starts something else.
-/
namespace DocTree.Markdown

def tableAt? (ks : List Container) (header : Place) : Option (List Alignment × Place) := do
  let columns ← columnCount? header.line
  let (continued, c) := enterLine ks header.nextLine
  let alignments ← alignments? c.place.line
  if continued ∧ alignments.length = columns then some (alignments, c.place.nextLine) else none

def interruptsParagraph (ks : List Container) (continued : Bool) (p : Place) : Bool :=
  interrupts false continued p.rest || (p.rest.head? == some '|' && (tableAt? ks p).isSome)

def continuation? (ks : List Container) (p : Place) : Option Place :=
  let (continued, c) := enterLine ks p
  let (n, inner) := c.passSpaces 4
  let q := inner.place
  let underlined := continued && (underlineLevel? q.line).isSome
  if n < 4 ∧ (interruptsParagraph ks continued q ∨ underlined) then
    none
  else some q

def passSeparator? (ks : List Container) (p : Place) : Option (Bool × Place) :=
  let q := passLineBlanks p
  match lineBreak? q.rest with
  | none => some (false, q)
  | some n => do
      let r := passLineBlanks (← continuation? ks (q.skip n))
      if (lineBreak? r.rest).isSome then none else some (true, r)

def titleBody? (ks : List Container) (closing : Char) : Nat → List Char → Place → Option Scanned
  | 0, _, _ => none
  | fuel + 1, done, p =>
      match p.rest with
      | [] => none
      | c :: r =>
          if c = closing then some (done.reverse, p.skip 1)
          else if c = '(' ∧ closing = ')' then none
          else if isLineEnd c then do
            let q ← continuation? ks p.pastBreak
            let q := q.skip (q.rest.takeWhile fun x => x == ' ' || x == '\t').length
            if (blankLine? q.rest).isSome then none
            else titleBody? ks closing fuel ('\n' :: done) q
          else
            match c, r with
            | '\\', x :: _ =>
                if isAsciiPunctuation x then titleBody? ks closing fuel (x :: c :: done) (p.skip 2)
                else titleBody? ks closing fuel (c :: done) (p.skip 1)
            | _, _ => titleBody? ks closing fuel (c :: done) (p.skip 1)

/-- The definition that starts at a place, and the place behind it. What stands in the next line is
its title only if nothing follows it there. -/
def definition? (ks : List Container) (fuel : Nat) (p : Place) : Option (Definition × Place) := do
  let (label, p) ← label? false (continuation? ks) fuel p
  if p.rest.head? ≠ some ':' then none
  let (_, p) ← passSeparator? ks (p.skip 1)
  let (destination, q) ← destination? 1 p
  if q.offset = p.offset then none
  let untitled : Definition := ⟨label, unescaped false destination, []⟩
  match passSeparator? ks q with
  | none => some (untitled, q)
  | some (broken, r) =>
      if r.offset = q.offset then none
      else
        let title : Option Scanned := do
          let c ← r.rest.head?
          let (s, t) ← titleBody? ks (← titleEnd? c) fuel [] (r.skip 1)
          if (blankLine? t.rest).isSome then some (s, t) else none
        match title with
        | some (s, t) => some ({ untitled with title := unescaped false s }, t)
        | none => if broken then some (untitled, q) else none

end DocTree.Markdown
