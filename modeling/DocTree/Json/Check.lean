import DocTree.Json.Literal
import DocTree.Json.Numeral

/-!
# Passing over a value and checking one

A value that nobody asks for is only held to the grammar. A value that is kept
for later is checked in full: its strings must pair their surrogates, its numbers
must be in range and its nesting must stay within the levels that are left.
-/
namespace DocTree

namespace Json

/-- Lists and objects inside one another, the outermost counted. -/
def maxLevels : Nat := 127

def Literal.skip (t : Literal) : Except Fault Unit := t.ending.check .skipping

end Json

mutual

def Json.skip : Json → Except Json.Fault Unit
  | .null | .boolean _ | .number _ => .ok ()
  | .text t => t.skip
  | .list items e => do
      Json.skipItems items
      e.check .skipping
  | .object members e => do
      Json.skipMembers members
      e.check .skipping
  | .broken b => .error (b.fault .skipping)

def Json.skipItems : List Json → Except Json.Fault Unit
  | [] => .ok ()
  | j :: js => do
      j.skip
      Json.skipItems js

def Json.skipMembers : List (Json.Literal × Json) → Except Json.Fault Unit
  | [] => .ok ()
  | (key, j) :: ms => do
      key.skip
      j.skip
      Json.skipMembers ms

end

/-- Checks a value in full, with `n` levels left for the lists and objects in it. -/
def Json.check : Nat → Json → Except Json.Fault Unit
  | _, .null | _, .boolean _ => .ok ()
  | _, .number n => do
      let _ ← n.value
      return ()
  | _, .text t => do
      let _ ← t.read
      return ()
  | 0, .list _ _ | 0, .object _ _ => .error (.malformed .tooDeep)
  | n + 1, .list items e => do
      items.forM (Json.check n)
      e.check .decoding
  | n + 1, .object members e => do
      members.forM fun (key, j) => do
        let _ ← key.read
        Json.check n j
      e.check .decoding
  | _, .broken b => .error (b.fault .decoding)

end DocTree
