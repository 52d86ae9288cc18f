import DocTree.Json.Basic

/-!
# String literals

The text between two quotes is scanned into pieces without judging numbered
escapes, because a string that nobody asks for may hold any of them. Reading the
pieces as text pairs the surrogates and refuses those that stand alone.
-/
namespace DocTree.Json

def hexDigit? (c : Char) : Option Nat :=
  if '0' ≤ c ∧ c ≤ '9' then some (c.toNat - '0'.toNat)
  else if 'a' ≤ c ∧ c ≤ 'f' then some (c.toNat - 'a'.toNat + 10)
  else if 'A' ≤ c ∧ c ≤ 'F' then some (c.toNat - 'A'.toNat + 10)
  else none

def hexValue? (a b c d : Char) : Option Nat := do
  let a ← hexDigit? a
  let b ← hexDigit? b
  let c ← hexDigit? c
  let d ← hexDigit? d
  return ((a * 16 + b) * 16 + c) * 16 + d

def shortEscape? (c : Char) : Option Char :=
  if c = '"' ∨ c = '\\' ∨ c = '/' then some c
  else if c = 'b' then some '\x08'
  else if c = 'f' then some '\x0c'
  else if c = 'n' then some '\n'
  else if c = 'r' then some '\r'
  else if c = 't' then some '\t'
  else none

/-- A numbered escape is cut off by the end of the text when fewer than four bytes are left. -/
def hexBreach (rest : List Char) : Breach :=
  if rest.foldl (fun n c => n + c.utf8Size) 0 < 4 then .textEnded else .wrongHexEscape

def Literal.stopped (b : Breach) : Literal × Option (List Char) := (⟨[], .broken b⟩, none)

def Literal.consPiece (p : Piece) (s : Literal × Option (List Char)) :
    Literal × Option (List Char) :=
  (⟨p :: s.1.pieces, s.1.ending⟩, s.2)

def Literal.scan : List Char → Literal × Option (List Char)
  | [] => stopped .textEnded
  | c :: r =>
      if c = '"' then (⟨[], .closed⟩, some r)
      else if c = '\\' then
        match r with
        | [] => stopped .textEnded
        | e :: s =>
            if e = 'u' then
              match s with
              | a :: b :: c :: d :: t =>
                  match hexValue? a b c d with
                  | some n => consPiece (.unit n) (scan t)
                  | none => stopped (hexBreach s)
              | _ => stopped (hexBreach s)
            else
              match shortEscape? e with
              | some x => consPiece (.char x) (scan s)
              | none => stopped .wrongEscape
      else if c.toNat < 0x20 then stopped .controlCharacter
      else consPiece (.char c) (scan r)

def isLead (n : Nat) : Bool := 0xD800 ≤ n && n < 0xDC00

def isTrail (n : Nat) : Bool := 0xDC00 ≤ n && n < 0xE000

def joinSurrogates (lead trail : Nat) : Char :=
  Char.ofNat ((lead - 0xD800) * 0x400 + (trail - 0xDC00) + 0x10000)

/-- What is wrong after a leading surrogate when no further piece follows. -/
def Ending.afterLead : Ending → Fault
  | .broken .textEnded => .unfinished .text
  | .broken .wrongHexEscape => .malformed .invalidEscape
  | _ => .malformed .surrogateCutShort

def readPieces (e : Ending) : List Piece → Except Fault (List Char)
  | [] => do
      e.check .decoding
      return []
  | .char c :: ps => do
      let cs ← readPieces e ps
      return c :: cs
  | .unit n :: ps =>
      if isTrail n then .error (.malformed .loneSurrogate)
      else if isLead n then
        match ps with
        | .unit m :: qs =>
            if isTrail m then do
              let cs ← readPieces e qs
              return joinSurrogates n m :: cs
            else .error (.malformed .loneSurrogate)
        | .char _ :: _ => .error (.malformed .surrogateCutShort)
        | [] => .error e.afterLead
      else do
        let cs ← readPieces e ps
        return Char.ofNat n :: cs

def Literal.read (t : Literal) : Except Fault String :=
  (readPieces t.ending t.pieces).map String.ofList

end DocTree.Json
