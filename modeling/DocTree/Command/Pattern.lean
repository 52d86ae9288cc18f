import DocTree.Path

/-!
# File name patterns

In a pattern a question mark stands for any character, an asterisk for any text
without a slash, and brackets for one of the characters in them, or for none of
them behind an exclamation mark. Two asterisks between slashes stand for any
number of directories.
-/
namespace DocTree.Command

structure CharRange where
  first : Char
  last : Char
  deriving DecidableEq, Repr

def CharRange.contains (r : CharRange) (c : Char) : Bool := r.first ≤ c && c ≤ r.last

inductive Symbol where
  | char (c : Char)
  | anyChar
  | anyText
  | anyDirectories
  | oneOf (rs : List CharRange)
  | noneOf (rs : List CharRange)
  deriving DecidableEq, Repr

def charRanges : List Char → List CharRange
  | a :: '-' :: b :: cs => ⟨a, b⟩ :: charRanges cs
  | a :: cs => ⟨a, a⟩ :: charRanges cs
  | [] => []

/-- The inside of brackets, of which the first character may be a closing one, and what follows
them. -/
def bracketBody? : List Char → Option (List Char × List Char)
  | [] => none
  | c :: cs =>
      match cs.dropWhile (· != ']') with
      | _ :: rest => some (c :: cs.takeWhile (· != ']'), rest)
      | [] => none

def readSymbols : Nat → Option Char → List Char → Option (List Symbol)
  | 0, _, _ => some []
  | _, _, [] => some []
  | fuel + 1, before, c :: cs =>
      if c = '?' then (readSymbols fuel (some c) cs).map (.anyChar :: ·)
      else if c = '*' then
        let rest := cs.dropWhile (· == '*')
        match cs.length - rest.length with
        | 0 => (readSymbols fuel (some c) cs).map (.anyText :: ·)
        | 1 =>
            if before = none ∨ before = some '/' then
              match rest with
              | [] => some [.anyDirectories]
              | '/' :: rest => (readSymbols fuel (some '/') rest).map (.anyDirectories :: ·)
              | _ => none
            else none
        | _ => none
      else if c = '[' then
        match cs with
        | '!' :: body =>
            match bracketBody? body with
            | some (inside, rest) =>
                (readSymbols fuel (some ']') rest).map (.noneOf (charRanges inside) :: ·)
            | none => none
        | body =>
            match bracketBody? body with
            | some (inside, rest) =>
                (readSymbols fuel (some ']') rest).map (.oneOf (charRanges inside) :: ·)
            | none => none
      else (readSymbols fuel (some c) cs).map (.char c :: ·)

def symbols? (cs : List Char) : Option (List Symbol) := readSymbols (cs.length + 1) none cs

def matchesName : List Symbol → List Char → Bool
  | [], cs => cs.isEmpty
  | .char c :: ss, cs =>
      match cs with
      | x :: r => x == c && matchesName ss r
      | [] => false
  | .anyChar :: ss, cs =>
      match cs with
      | _ :: r => matchesName ss r
      | [] => false
  | .oneOf rs :: ss, cs =>
      match cs with
      | x :: r => rs.any (·.contains x) && matchesName ss r
      | [] => false
  | .noneOf rs :: ss, cs =>
      match cs with
      | x :: r => !rs.any (·.contains x) && matchesName ss r
      | [] => false
  | .anyText :: ss, cs | .anyDirectories :: ss, cs =>
      (List.range (cs.length + 1)).any fun n => matchesName ss (cs.drop n)

structure PatternPart where
  symbols : List Symbol
  deriving DecidableEq, Repr

namespace PatternPart

def literal? (p : PatternPart) : Option String :=
  (p.symbols.mapM fun s => match s with | Symbol.char c => some c | _ => none).map String.ofList

def isDeep (p : PatternPart) : Bool := p.symbols == [.anyDirectories]

def matchesText (p : PatternPart) (name : String) : Bool := matchesName p.symbols name.toList

/-- The names of dots alone that a part describes, in the order in which they are followed; the
part has to start with a dot itself. -/
def dotNames (p : PatternPart) : List String :=
  if p.symbols.head? = some (.char '.') then ["..", "."].filter p.matchesText else []

end PatternPart

structure Pattern where
  rooted : Bool
  parts : List PatternPart
  directory : Bool
  deriving DecidableEq, Repr

def Pattern.ofText? (s : String) : Option Pattern := do
  let cs := s.toList
  let _ ← symbols? cs
  let rooted := cs.head? == some '/'
  let body := if rooted then cs.drop 1 else cs
  let parts := Path.splitSlash body
  let parts := if parts.getLast? == some [] ∧ body ≠ [] then parts.dropLast else parts
  let parts ← parts.mapM symbols?
  return ⟨rooted, parts.map PatternPart.mk, cs.getLast? == some '/'⟩

end DocTree.Command
