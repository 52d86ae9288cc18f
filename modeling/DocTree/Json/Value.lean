/-!
# Writing JSON

A value has two layouts. The compact one puts no space anywhere; the wide one
puts every item and member on a line of its own, indented by two spaces for each
list or object around it, and a space behind each colon. An empty list or object
has nothing inside its brackets in either.
-/
namespace DocTree.Json

inductive Value where
  | boolean (b : Bool)
  | number (n : Nat)
  | text (s : String)
  | list (items : List Value)
  | object (members : List (String × Value))
  deriving Repr

inductive Layout where
  | compact
  | wide
  deriving DecidableEq, Repr

def lowHexDigit (n : Nat) : Char := if n < 10 then Char.ofNat (48 + n) else Char.ofNat (87 + n)

def escapeChar (c : Char) : List Char :=
  if c = '"' then ['\\', '"']
  else if c = '\\' then ['\\', '\\']
  else if c = '\x08' then ['\\', 'b']
  else if c = '\x0c' then ['\\', 'f']
  else if c = '\n' then ['\\', 'n']
  else if c = '\r' then ['\\', 'r']
  else if c = '\t' then ['\\', 't']
  else if c.toNat < 0x20 then
    ['\\', 'u', '0', '0', lowHexDigit (c.toNat / 16), lowHexDigit (c.toNat % 16)]
  else [c]

def stringChars (s : String) : List Char := '"' :: s.toList.flatMap escapeChar ++ ['"']

/-- What stands before an item or a closing bracket that has `depth` brackets around it. -/
def Layout.lineBreak : Layout → Nat → List Char
  | .compact, _ => []
  | .wide, depth => '\n' :: List.replicate (2 * depth) ' '

def Layout.colon : Layout → List Char
  | .compact => [':']
  | .wide => [':', ' ']

mutual

def Value.chars (l : Layout) (depth : Nat) : Value → List Char
  | .boolean b => (if b then "true" else "false").toList
  | .number n => Nat.toDigits 10 n
  | .text s => stringChars s
  | .list [] => ['[', ']']
  | .list (v :: vs) =>
      '[' :: l.lineBreak (depth + 1) ++ v.chars l (depth + 1) ++ itemChars l (depth + 1) vs ++
        l.lineBreak depth ++ [']']
  | .object [] => ['\x7b', '\x7d']
  | .object ((key, v) :: ms) =>
      '\x7b' :: l.lineBreak (depth + 1) ++ stringChars key ++ l.colon ++ v.chars l (depth + 1) ++
        memberChars l (depth + 1) ms ++ l.lineBreak depth ++ ['\x7d']

def itemChars (l : Layout) (depth : Nat) : List Value → List Char
  | [] => []
  | v :: vs => ',' :: l.lineBreak depth ++ v.chars l depth ++ itemChars l depth vs

def memberChars (l : Layout) (depth : Nat) : List (String × Value) → List Char
  | [] => []
  | (key, v) :: ms =>
      ',' :: l.lineBreak depth ++ stringChars key ++ l.colon ++ v.chars l depth ++
        memberChars l depth ms

end

def Value.write (l : Layout) (v : Value) : String := String.ofList (v.chars l 0)

end DocTree.Json
