import DocTree.Json.Fault

/-!
# JSON text as a tree

A tree holds what a text says as far as the text is well formed. Where it stops
being so, the tree carries a breach: in place of the value that could not be
read, or at the end of the list, object or string that was not finished. Texts
are thus read as a whole first, and the tree is walked in text order to find
which fault counts.
-/
namespace DocTree.Json

inductive Breach where
  | noValue
  | strayValue
  | wordEnded
  | wrongWord
  | numberEnded
  | wrongNumber
  | textEnded
  | controlCharacter
  | wrongEscape
  | wrongHexEscape
  | listEnded
  | listEndedAfterComma
  | listUnseparated
  | listTrailingComma
  | objectEnded
  | objectEndedAfterComma
  | objectUnseparated
  | objectTrailingComma
  | keyNotText
  | colonMissing
  deriving DecidableEq, Repr

/-- How the parts of a list, an object or a string come to an end. Nothing follows a part that is
broken itself. -/
inductive Ending where
  | closed
  | unreached
  | broken (b : Breach)
  deriving DecidableEq, Repr

inductive Piece where
  | char (c : Char)
  | unit (n : Nat)
  deriving DecidableEq, Repr

structure Literal where
  pieces : List Piece
  ending : Ending
  deriving DecidableEq, Repr

structure Numeral where
  negative : Bool
  whole : List Nat
  fraction : List Nat
  exponent : Option (Bool × List Nat)
  deriving DecidableEq, Repr

end Json

inductive Json where
  | null
  | boolean (b : Bool)
  | number (n : Json.Numeral)
  | text (t : Json.Literal)
  | list (items : List Json) (ending : Json.Ending)
  | object (members : List (Json.Literal × Json)) (ending : Json.Ending)
  | broken (b : Json.Breach)
  deriving Repr

namespace Json

abbrev Member := Literal × Json

-- Equality is not derived for a type that is nested in lists of itself.
mutual

def same : Json → Json → Bool
  | .null, .null => true
  | .boolean a, .boolean b => a == b
  | .number m, .number n => m == n
  | .text s, .text t => s == t
  | .list xs e, .list ys f => sameItems xs ys && e == f
  | .object ms e, .object ns f => sameMembers ms ns && e == f
  | .broken b, .broken c => b == c
  | _, _ => false

def sameItems : List Json → List Json → Bool
  | [], [] => true
  | x :: xs, y :: ys => same x y && sameItems xs ys
  | _, _ => false

def sameMembers : List Member → List Member → Bool
  | [], [] => true
  | (k, x) :: ms, (l, y) :: ns => k == l && same x y && sameMembers ms ns
  | _, _ => false

end

mutual

theorem same_iff (x y : Json) : same x y = true ↔ x = y := by
  cases x with
  | null | boolean | number | text | broken => cases y <;> simp [same]
  | list xs => cases y <;> simp [same, sameItems_iff xs]
  | object ms => cases y <;> simp [same, sameMembers_iff ms]

theorem sameItems_iff (xs ys : List Json) : sameItems xs ys = true ↔ xs = ys := by
  cases xs with
  | nil => cases ys <;> simp [sameItems]
  | cons x xs => cases ys <;> simp [sameItems, same_iff x, sameItems_iff xs]

theorem sameMembers_iff (ms ns : List Member) : sameMembers ms ns = true ↔ ms = ns := by
  cases ms with
  | nil => cases ns <;> simp [sameMembers]
  | cons m ms =>
    obtain ⟨k, x⟩ := m
    cases ns <;> simp [sameMembers, same_iff x, sameMembers_iff ms, Prod.ext_iff]

end

instance : DecidableEq Json := fun x y => decidable_of_iff _ (same_iff x y)

/-- The three readers that can meet a breach: one that decodes values, one that passes over values
nobody asked for, and one that has read all the items it wants and expects the list to end. -/
inductive Stance where
  | decoding
  | skipping
  | closing
  deriving DecidableEq, Repr

def Breach.fault : Stance → Breach → Fault
  | _, .noValue => .unfinished .value
  | _, .strayValue => .malformed .valueExpected
  | _, .wordEnded => .unfinished .value
  | _, .wrongWord => .malformed .wordExpected
  | .skipping, .numberEnded => .malformed .invalidNumber
  | _, .numberEnded => .unfinished .value
  | _, .wrongNumber => .malformed .invalidNumber
  | _, .textEnded => .unfinished .text
  | _, .controlCharacter => .malformed .controlCharacter
  | _, .wrongEscape => .malformed .invalidEscape
  | _, .wrongHexEscape => .malformed .invalidEscape
  | _, .listEnded => .unfinished .list
  | .closing, .listEndedAfterComma => .malformed .trailingCharacters
  | _, .listEndedAfterComma => .unfinished .value
  | .closing, .listUnseparated => .malformed .trailingCharacters
  | _, .listUnseparated => .malformed .listSeparatorExpected
  | .skipping, .listTrailingComma => .malformed .valueExpected
  | _, .listTrailingComma => .malformed .trailingComma
  | _, .objectEnded => .unfinished .object
  | .skipping, .objectEndedAfterComma => .unfinished .object
  | _, .objectEndedAfterComma => .unfinished .value
  | _, .objectUnseparated => .malformed .objectSeparatorExpected
  | .skipping, .objectTrailingComma => .malformed .keyNotText
  | _, .objectTrailingComma => .malformed .trailingComma
  | _, .keyNotText => .malformed .keyNotText
  | _, .colonMissing => .malformed .colonExpected

def Ending.check (stance : Stance) : Ending → Except Fault Unit
  | .broken b => .error (b.fault stance)
  | _ => .ok ()

end Json

end DocTree
