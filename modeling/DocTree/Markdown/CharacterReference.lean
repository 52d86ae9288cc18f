import DocTree.Markdown.NamedCharacter
import DocTree.Markdown.Punctuation

/-!
# What stands for a character

A character reference names a character or gives its number, and a backslash makes
the punctuation behind it stand for itself.
-/
namespace DocTree.Markdown

def isHexDigit (c : Char) : Bool := c.isDigit || ('a' ≤ c && c ≤ 'f') || ('A' ≤ c && c ≤ 'F')

def hexDigitValue (c : Char) : Nat :=
  if c.isDigit then c.toNat - 48 else c.toLower.toNat - 87

def numberedCharacter (n : Nat) : Char :=
  if n ≠ 0 ∧ n.isValidChar then Char.ofNat n else '\ufffd'

/-- Reads digits, at most `most` of them, that end in a semicolon. Returns what they stand for and
how many characters they take with the semicolon. -/
def numericReference? (isDigit : Char → Bool) (value : Char → Nat) (base most : Nat)
    (cs : List Char) : Option (List Char × Nat) :=
  let ds := (cs.take most).takeWhile isDigit
  match ds, cs.drop ds.length with
  | _ :: _, ';' :: _ =>
      some ([numberedCharacter (ds.foldl (fun n d => n * base + value d) 0)], ds.length + 1)
  | _, _ => none

def reference? (cs : List Char) : Option (List Char × Nat) :=
  match cs with
  | '&' :: '#' :: x :: r =>
      if x = 'x' ∨ x = 'X' then
        (numericReference? isHexDigit hexDigitValue 16 6 r).map fun (s, n) => (s, n + 3)
      else
        (numericReference? Char.isDigit (fun c => c.toNat - 48) 10 7 (x :: r)).map fun (s, n) =>
          (s, n + 2)
  | '&' :: r =>
      let name := r.takeWhile Char.isAlphanum
      if (r.drop name.length).head? == some ';' then
        (namedCharacter? (String.ofList name)).map fun s => (s, name.length + 2)
      else none
  | _ => none

def startsHiddenMark (inCell : Bool) (cs : List Char) : Bool :=
  match cs with
  | '\\' :: '\\' :: '|' :: _ => inCell
  | _ => false

def unescape (inCell : Bool) : Nat → List Char → List Char
  | 0, cs => cs
  | _, [] => []
  | fuel + 1, c :: r =>
      if startsHiddenMark inCell (c :: r) then '|' :: unescape inCell fuel (r.drop 2)
      else if c = '\\' then
        match r with
        | x :: s =>
            if isAsciiPunctuation x then x :: unescape inCell fuel s
            else c :: unescape inCell fuel r
        | [] => [c]
      else if c = '&' then
        match reference? (c :: r) with
        | some (s, n) => s ++ unescape inCell fuel (r.drop (n - 1))
        | none => c :: unescape inCell fuel r
      else if c = '\r' then unescape inCell fuel r
      else c :: unescape inCell fuel r

def unescaped (inCell : Bool) (cs : List Char) : List Char := unescape inCell cs.length cs

end DocTree.Markdown
