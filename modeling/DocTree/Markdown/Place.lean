/-!
# Places in a text

Markdown is read from a text in which every character keeps its place: what a
part of the document runs up to is a number of characters from the start of the
text, and the source between two places can always be looked at again.
-/
namespace DocTree.Markdown

structure Place where
  offset : Nat
  rest : List Char

namespace Place

def ofText (cs : List Char) : Place := ⟨0, cs⟩

def skip (n : Nat) (p : Place) : Place := ⟨p.offset + n, p.rest.drop n⟩

def upTo (stop : Nat) (p : Place) : List Char := p.rest.take (stop - p.offset)

def atLeast (offset : Nat) (p : Place) : Place := p.skip (offset - p.offset)

end Place

def isLineBlank (c : Char) : Bool := c == ' ' || c == '\t' || c == '\x0b' || c == '\x0c'

def isLineEnd (c : Char) : Bool := c == '\n' || c == '\r'

def isLineOrBreakBlank (c : Char) : Bool := isLineBlank c || isLineEnd c

def isBlankLine (cs : List Char) : Bool := cs.all isLineBlank

def lineOf (cs : List Char) : List Char := cs.takeWhile fun c => !isLineEnd c

/-- How many characters the line break takes that a text starts with; none at the end of the text.
A carriage return breaks a line also without a line feed behind it. -/
def lineBreak? (cs : List Char) : Option Nat :=
  match cs with
  | [] => some 0
  | '\n' :: _ => some 1
  | '\r' :: '\n' :: _ => some 2
  | '\r' :: _ => some 1
  | _ => none

def blankLine? (cs : List Char) : Option Nat :=
  let blanks := cs.takeWhile isLineBlank
  (lineBreak? (cs.drop blanks.length)).map (blanks.length + ·)

def countLast (f : Char → Bool) (cs : List Char) : Nat := (cs.reverse.takeWhile f).length

namespace Place

def line (p : Place) : List Char := lineOf p.rest

def pastBreak (p : Place) : Place := p.skip ((lineBreak? p.rest).getD 0)

def pastBlankLine (p : Place) : Place := p.skip ((blankLine? p.rest).getD 0)

def nextLine (p : Place) : Place := (p.skip p.line.length).pastBreak

/-- The line of a block that is kept as written, with its line feed. Only a line feed ends it. -/
def literalLine (p : Place) : List Char :=
  let line := p.rest.takeWhile (· != '\n')
  line ++ (p.rest.drop line.length).take 1

end Place

end DocTree.Markdown
