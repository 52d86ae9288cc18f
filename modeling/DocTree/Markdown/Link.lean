import DocTree.Markdown.Basic
import DocTree.Markdown.CharacterReference
import DocTree.Markdown.Cursor
import DocTree.Text.CaseFolding

/-!
# The parts of a link

Destinations, titles and labels. Titles and labels may be broken over lines; their
scanners are told what to pass over behind a line break.
-/
namespace DocTree.Markdown

abbrev Scanned := List Char × Place

def pointedDestination? : Nat → Bool → List Char → List Char → Option Scanned
  | _, _, _, [] => none
  | offset, escaped, done, c :: r =>
      if escaped ∧ isAsciiPunctuation c then
        pointedDestination? (offset + 1) false (c :: done) r
      else if isLineEnd c ∨ c = '<' then none
      else if c = '>' then some (done.reverse, ⟨offset + 1, r⟩)
      else pointedDestination? (offset + 1) (c == '\\') (c :: done) r

/-- Scans a destination without brackets around it; parentheses in it are paired and nested at most
one level deeper than `most`. -/
def bareDestination? (most : Nat) : Nat → Nat → Bool → List Char → List Char → Option Scanned
  | offset, depth, _, done, [] => if depth = 0 then some (done.reverse, ⟨offset, []⟩) else none
  | offset, depth, escaped, done, c :: r =>
      let take (depth : Nat) (escaped : Bool) : Option Scanned :=
        bareDestination? most (offset + 1) depth escaped (c :: done) r
      let stop : Option Scanned :=
        if depth = 0 then some (done.reverse, ⟨offset, c :: r⟩) else none
      if escaped ∧ isAsciiPunctuation c then take depth false
      else if c.toNat ≤ 0x20 then stop
      else if c = '(' then if most < depth then none else take (depth + 1) false
      else if c = ')' then if depth = 0 then stop else take (depth - 1) false
      else take depth (c == '\\')

def destination? (most : Nat) (p : Place) : Option Scanned :=
  match p.rest with
  | '<' :: r => pointedDestination? (p.offset + 1) false [] r
  | cs => bareDestination? most p.offset 0 false [] cs

def titleEnd? (c : Char) : Option Char :=
  if c = '"' ∨ c = '\'' then some c else if c = '(' then some ')' else none

def passLineBlanks (p : Place) : Place := p.skip (p.rest.takeWhile isLineBlank).length

def passLabelBlanks? (enter : Place → Option Place) : Nat → Bool → Place → Option Place
  | 0, _, p => some p
  | fuel + 1, broken, p =>
      match p.rest with
      | [] => some p
      | c :: _ =>
          if isLineBlank c then passLabelBlanks? enter fuel broken (p.skip 1)
          else if isLineEnd c then
            if broken then none
            else (enter p.pastBreak).bind (passLabelBlanks? enter fuel true)
          else some p

def labelWeight (c : Char) : Nat := if c.toNat < 0x80 then 0 else c.utf8Size

def labelBody? (inCell : Bool) (enter : Place → Option Place) :
    Nat → Nat → Bool → List Char → Place → Option Scanned
  | 0, _, _, _, _ => none
  | fuel + 1, weight, solid, done, p =>
      if 1000 ≤ weight then none
      else
        match p.rest with
        | [] => none
        | c :: r =>
            if c = '[' then none
            else if c = ']' then if solid then some (done.reverse, p.skip 1) else none
            else if startsHiddenMark inCell (c :: r) then
              labelBody? inCell enter fuel (weight + 2) solid ('|' :: done) (p.skip 3)
            else if c = '\\' then
              match r with
              | [] => none
              | x :: _ =>
                  let taken := if inCell ∧ x = '|' then [x] else [x, c]
                  labelBody? inCell enter fuel (weight + 1 + x.utf8Size)
                    (solid || 1 < x.utf8Size) (taken ++ done) (p.skip 2)
            else if isLineOrBreakBlank c then do
              let next ← passLabelBlanks? enter fuel false p
              labelBody? inCell enter fuel (weight + (next.offset - p.offset)) solid
                (' ' :: done) next
            else
              labelBody? inCell enter fuel (weight + labelWeight c) true (c :: done) (p.skip 1)

def normalLabel (cs : List Char) : List Char :=
  let trimmed := (cs.dropWhile (· == ' ')).reverse.dropWhile (· == ' ')
  Text.foldCase trimmed.reverse

def label? (inCell : Bool) (enter : Place → Option Place) (fuel : Nat) (p : Place) :
    Option Scanned :=
  match p.rest with
  | '[' :: _ =>
      (labelBody? inCell enter fuel 0 false [] (p.skip 1)).map fun (s, q) => (normalLabel s, q)
  | _ => none

end DocTree.Markdown
