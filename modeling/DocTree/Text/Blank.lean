/-!
# Blank characters

A character is blank when Unicode gives it the property `White_Space`. Trimming
removes blank characters from the ends of a text and nothing else.
-/
namespace DocTree.Text

/-- The twenty-five characters with the Unicode property `White_Space`. -/
def isBlank (c : Char) : Bool :=
  let n := c.toNat
  (9 ≤ n && n ≤ 13) || n == 0x20 || n == 0x85 || n == 0xA0 || n == 0x1680 ||
    (0x2000 ≤ n && n ≤ 0x200A) || n == 0x2028 || n == 0x2029 || n == 0x202F ||
    n == 0x205F || n == 0x3000

def trimStartChars (cs : List Char) : List Char := cs.dropWhile isBlank

def trimEndChars (cs : List Char) : List Char := (cs.reverse.dropWhile isBlank).reverse

def trimEnd (s : String) : String := String.ofList (trimEndChars s.toList)

def trim (s : String) : String := String.ofList (trimEndChars (trimStartChars s.toList))

theorem trimEndChars_isPrefix (cs : List Char) : trimEndChars cs <+: cs := by
  simpa [trimEndChars] using List.reverse_prefix.2 (List.dropWhile_suffix (l := cs.reverse) isBlank)

end DocTree.Text
