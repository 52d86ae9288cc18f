/-!
# Text on a terminal

A terminal takes some control characters for commands. In a text that is shown on
one they are written by their numbers; line breaks and tabs stay as they are.
-/
namespace DocTree.Text

def hexText (n : Nat) : List Char := Nat.toDigits 16 n

/-- A character as it is shown: the controls of ASCII that move more than the line, and all controls
from U+0080 on, by their numbers. -/
def terminalChar (c : Char) : List Char :=
  let n := c.toNat
  if n = 0x07 ∨ n = 0x08 ∨ n = 0x0C then '\\' :: 'x' :: '0' :: hexText n
  else if n = 0x1B ∨ n = 0x7F then '\\' :: 'x' :: hexText n
  else if 0x80 ≤ n ∧ n ≤ 0x9F then '\\' :: 'u' :: '\x7b' :: hexText n ++ ['\x7d']
  else [c]

def terminalText (s : String) : String := String.ofList (s.toList.flatMap terminalChar)

end DocTree.Text
