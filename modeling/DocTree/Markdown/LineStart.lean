import DocTree.Markdown.Basic
import DocTree.Markdown.RawHtml

/-!
# What the start of a line says

Each kind of block announces itself at the start of a line. The functions here
are given what is left of the line behind its containers and its indentation; a
fence is given all that follows, because only a line feed ends its line.
-/
namespace DocTree.Markdown

def isRule (cs : List Char) : Bool :=
  match cs with
  | c :: _ =>
      (c == '*' || c == '-' || c == '_') && cs.all (fun x => x == c || x == ' ' || x == '\t') &&
        3 ≤ cs.countP (· == c)
  | [] => false

def headingLevel? (cs : List Char) : Option (Nat × List Char) :=
  let n := (cs.takeWhile (· == '#')).length
  let rest := cs.drop n
  if 1 ≤ n ∧ n ≤ 6 ∧ rest.head?.all isLineBlank then some (n, rest) else none

def underlineLevel? (cs : List Char) : Option Nat :=
  match cs with
  | c :: r =>
      if (c = '=' ∨ c = '-') ∧ isBlankLine (r.dropWhile (· == c)) then
        some (if c = '=' then 1 else 2)
      else none
  | [] => none

def fence? (cs : List Char) : Option (Char × Nat) :=
  match cs with
  | c :: _ =>
      let n := (cs.takeWhile (· == c)).length
      let behind := (cs.drop n).takeWhile (· != '\n')
      if (c = '`' ∨ c = '~') ∧ 3 ≤ n ∧ (c = '`' → !behind.contains '`') then some (c, n) else none
  | [] => none

/-- How many characters the closing fence takes that a text starts with, without its line break. The
end of the text closes every fence. -/
def closingFence? (mark : Char) (n : Nat) (cs : List Char) : Option Nat :=
  let marks := (cs.takeWhile (· == mark)).length
  let spaces := ((cs.drop marks).takeWhile (· == ' ')).length
  if cs.isEmpty then some 0
  else if n ≤ marks ∧ (lineBreak? (cs.drop (marks + spaces))).isSome then some (marks + spaces)
  else none

structure ItemMark where
  mark : Char
  number : Option Nat
  width : Nat
  rest : List Char

def decimalValue (ds : List Char) : Nat := ds.foldl (fun n d => n * 10 + (d.toNat - 48)) 0

def itemMark? (cs : List Char) : Option ItemMark :=
  let m : Option ItemMark :=
    match cs with
    | c :: r =>
        if c = '-' ∨ c = '+' ∨ c = '*' then some ⟨c, none, 1, r⟩
        else
          let ds := (cs.take 9).takeWhile Char.isDigit
          match ds, cs.drop ds.length with
          | _ :: _, x :: rest =>
              if x = '.' ∨ x = ')' then some ⟨x, some (decimalValue ds), ds.length + 1, rest⟩
              else none
          | _, _ => none
    | [] => none
  m.filter fun m =>
    match m.rest with
    | [] => true
    | c :: _ => c == ' ' || c == '\t'

def splitColumns : List Char → List (List Char)
  | [] => [[]]
  | c :: cs =>
      match splitColumns cs with
      | [] => [[c]]
      | part :: parts => if c = '|' then [] :: part :: parts else (c :: part) :: parts

/-- The alignment that a part of a delimiter row asks for by its colons: a first one stands at the
left, any other one at the right. -/
def alignmentOf (part : List Char) : Alignment :=
  match part.filter (· != ' ') with
  | ':' :: r => if r.contains ':' then .center else .left
  | r => if r.contains ':' then .right else .unset

def alignments? (cs : List Char) : Option (List Alignment) :=
  let body := cs.dropWhile (· == ' ')
  let parts := splitColumns (match body with
    | '|' :: r => r
    | _ => body)
  let closed := parts.dropLast
  let last := parts.getLast?.getD []
  if cs.length ≤ body.length + 3 ∧ body.all (fun c => " :-|".toList.contains c) ∧
      body.contains '|' ∧ body.contains '-' ∧ closed.all (·.contains '-') then
    some ((if last.all (· == ' ') then closed else parts).map alignmentOf)
  else none

def countColumnMarks : Nat → Option Char → List Char → List Char → Nat × List Char
  | n, _, last, [] => (n, last)
  | n, before, last, c :: r =>
      if c = '|' ∧ before ≠ some '\\' then countColumnMarks (n + 1) (some c) r r
      else countColumnMarks n (some c) last r

def columnCount? (cs : List Char) : Option Nat :=
  let (n, last) := countColumnMarks 0 none [] cs
  if n = 0 then none
  else
    some (n + 1 - (if (cs.dropWhile isLineBlank).head? == some '|' then 1 else 0) -
      (if isBlankLine last then 1 else 0))

/-- Whether what is left of a line, and the text behind it, ends a paragraph or, with `inTable`, a
table; `continued` says whether the line continues the containers. An item that is empty or does
not start a list does not end a paragraph of its container. -/
def interrupts (inTable continued : Bool) (cs : List Char) : Bool :=
  let line := lineOf cs
  line.isEmpty || isRule line || (headingLevel? line).isSome || (fence? cs).isSome ||
    line.head? == some '>' ||
    (match itemMark? line with
      | some m =>
          !continued || inTable ||
            ((m.number.isNone || m.number == some 1) && !isBlankLine m.rest)
      | none => false) ||
    (match line with
      | '<' :: r => (blockTerminator? r).isSome || startsBlockElement r
      | _ => false)

end DocTree.Markdown
