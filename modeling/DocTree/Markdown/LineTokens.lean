import DocTree.Markdown.Basic
import DocTree.Markdown.CharacterReference
import DocTree.Text.Blank

/-!
# The tokens of a line

A line of text, or a cell of a table, is cut into tokens: plain text, what a
backslash or a character reference stands for, and the marks that may turn out to
belong to inline elements.
-/
namespace DocTree.Markdown

/-- Whether a run of marks between the given characters may open emphasis. No run of a cell that
something stands before opens it at the end of the cell. -/
def opensAt (inCell : Bool) (mark : Char) (length : Nat) (before next : Option Char) : Bool :=
  match next with
  | none => false
  | some x =>
      if Text.isBlank x then false
      else
        match before with
        | none => true
        | some y =>
            !(inCell && x == '|') &&
              ((mark == '*' && !isPunctuation x) || (mark == '~' && 1 < length) ||
                Text.isBlank y || isPunctuation y)

def closesAt (inCell : Bool) (mark : Char) (length : Nat) (before next : Option Char) : Bool :=
  match before with
  | none => false
  | some y =>
      if Text.isBlank y then false
      else
        match next with
        | none => true
        | some x =>
            (inCell && x == '|') ||
              ((mark == '*' || (mark == '~' && 1 < length)) && !isPunctuation y) ||
              (mark == '~' && y == '~') || Text.isBlank x || isPunctuation x

structure LineScan where
  tokens : List Token
  text : Place
  here : Place

namespace LineScan

def flush (s : LineScan) : List Token := Token.addText s.text s.here.offset s.tokens

def plain (n : Nat) (s : LineScan) : LineScan := { s with here := s.here.skip n }

def token (kind : TokenKind) (n : Nat) (s : LineScan) : LineScan :=
  let next := s.here.skip n
  ⟨⟨kind, s.here, next.offset⟩ :: s.flush, next, next⟩

def drop (n m : Nat) (s : LineScan) : LineScan :=
  let next := s.here.skip n
  ⟨s.flush, next, next.skip m⟩

def run (c : Char) (cs : List Char) : Nat := (cs.takeWhile (· == c)).length

def scan (inCell : Bool) : Nat → Option Char → LineScan → LineScan
  | 0, _, s => s
  | fuel + 1, before, s =>
      match s.here.rest with
      | [] => s
      | c :: r =>
          if isLineEnd c ∨ (inCell ∧ c = '|') then s
          else if startsHiddenMark inCell (c :: r) then scan inCell fuel (some '|') (s.drop 2 1)
          else if c = '\\' then
            match r with
            | [] => s.plain 1
            | x :: more =>
                if !isAsciiPunctuation x then scan inCell fuel (some c) (s.plain 1)
                else if x = '`' then
                  let n := run '`' more + 1
                  scan inCell fuel (some x) ((s.drop 1 0).token (.backticks n true) n)
                else scan inCell fuel (some x) (s.drop 1 1)
          else if c = '*' ∨ c = '_' ∨ c = '~' then
            let n := run c r + 1
            let next := (r.drop (n - 1)).head?
            let canOpen := opensAt inCell c n before next
            let canClose := closesAt inCell c n before next
            scan inCell fuel (some c)
              (if (canOpen || canClose) && (c != '~' || n ≤ 2) then
                s.token (.marks c n canOpen canClose) n
              else s.plain n)
          else if c = '`' then
            let n := run c r + 1
            scan inCell fuel (some c) (s.token (.backticks n false) n)
          else if c = '<' ∧ r.head? ≠ some '\\' then scan inCell fuel (some c) (s.token .angle 1)
          else if c = '!' ∧ r.head? = some '[' then
            scan inCell fuel (some '[') (s.token (.opening true) 2)
          else if c = '[' then scan inCell fuel (some c) (s.token (.opening false) 1)
          else if c = ']' then scan inCell fuel (some c) (s.token (.closing true) 1)
          else
            match reference? (c :: r) with
            | some (x, n) => scan inCell fuel (some ';') (s.token (.reference x) n)
            | none => scan inCell fuel (some c) (s.plain 1)

end LineScan

def scanLine (inCell : Bool) (before : Option Char) (p : Place) (ts : List Token) : LineScan :=
  LineScan.scan inCell (p.line.length + 1) before ⟨ts, p, p⟩

def LineScan.trimmed (s : LineScan) : List Token :=
  let blanks := countLast isLineBlank (s.text.upTo s.here.offset)
  Token.addText s.text (s.here.offset - blanks) s.tokens

/-- What a line break behind a scanned line is: the tokens before it, the token of the break and the
place behind it. A backslash breaks the line hard unless the text ends behind it; so do two blanks.
`lead` is how many blanks the line starts with before the scanned part. -/
def LineScan.break? (start : Place) (lead : Nat) (s : LineScan) :
    Option (List Token × Token × Place) :=
  if s.here.rest.isEmpty then none
  else
    let next := s.here.pastBreak
    let source := start.upTo s.here.offset
    let backslashes := countLast (· == '\\') source
    let blanks := countLast isLineBlank source
    let blanks := if blanks = source.length then blanks + lead else blanks
    let ended (kind : TokenKind) (n : Nat) : List Token × Token × Place :=
      let stop := s.here.offset - n
      (Token.addText s.text stop s.tokens, ⟨kind, ⟨stop, []⟩, next.offset⟩, next)
    if backslashes % 2 = 1 ∧ !next.rest.isEmpty then some (ended (.hardBreak true) 1)
    else if 2 ≤ blanks then some (ended (.hardBreak false) blanks)
    else some (ended .softBreak blanks)

end DocTree.Markdown
