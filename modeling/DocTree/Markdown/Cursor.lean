import DocTree.Markdown.Place

/-!
# Indentation

A cursor stands inside a line that is being divided among the containers around
it. A tab reaches to the next multiple of four columns; when only some of its
columns are taken, the others stay pending as spaces.
-/
namespace DocTree.Markdown

structure Cursor where
  place : Place
  column : Nat
  pending : Nat

namespace Cursor

def ofPlace (p : Place) : Cursor := ⟨p, 0, 0⟩

def passColumns : Nat → Nat → Nat → List Char → Nat × Cursor
  | 0, column, offset, cs => (0, ⟨⟨offset, cs⟩, column, 0⟩)
  | n + 1, column, offset, ' ' :: cs =>
      let r := passColumns n (column + 1) (offset + 1) cs
      (r.1 + 1, r.2)
  | n + 1, column, offset, '\t' :: cs =>
      let width := 4 - column % 4
      if width ≤ n + 1 then
        let r := passColumns (n + 1 - width) 0 (offset + 1) cs
        (r.1 + width, r.2)
      else (n + 1, ⟨⟨offset + 1, cs⟩, 0, width - (n + 1)⟩)
  | _ + 1, column, offset, cs => (0, ⟨⟨offset, cs⟩, column, 0⟩)

def passSpaces (n : Nat) (c : Cursor) : Nat × Cursor :=
  if n ≤ c.pending then (n, { c with pending := c.pending - n })
  else
    let r := passColumns (n - c.pending) c.column c.place.offset c.place.rest
    (r.1 + c.pending, r.2)

def passIndent (c : Cursor) : Place :=
  c.place.skip (c.place.rest.takeWhile fun x => x == ' ' || x == '\t').length

def pass (n : Nat) (c : Cursor) : Cursor := ⟨c.place.skip n, c.column + n, c.pending⟩

def atEnd (c : Cursor) : Bool := c.place.rest.head?.all isLineEnd

def padding (c : Cursor) : List Char := List.replicate c.pending ' '

end Cursor

inductive Container where
  | quote
  | item (indent : Nat)
  deriving DecidableEq, Repr

/-- The containers, outermost first, that a line continues: their number and what is left of the
line. -/
def matchContainers : List Container → Cursor → Nat × Cursor
  | [], c => (0, c)
  | .quote :: ks, c =>
      let inner := (c.passSpaces 3).2
      if inner.place.rest.head? == some '>' then
        let r := matchContainers ks ((inner.pass 1).passSpaces 1).2
        (r.1 + 1, r.2)
      else (0, c)
  | .item indent :: ks, c =>
      let p := c.passSpaces indent
      if p.1 = indent ∨ p.2.atEnd then
        let r := matchContainers ks p.2
        (r.1 + 1, r.2)
      else (0, c)

def enterLine (ks : List Container) (p : Place) : Bool × Cursor :=
  let r := matchContainers ks (.ofPlace p)
  (r.1 == ks.length, r.2)

def passContainers (ks : List Container) (p : Place) : Place := (enterLine ks p).2.place

end DocTree.Markdown
