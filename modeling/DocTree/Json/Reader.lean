import DocTree.Json.Literal
import DocTree.Json.Numeral

/-!
# Reading text into a tree

Every scanner takes the text from where it stands and returns what it read with
the rest of the text, `none` when the text stopped being JSON. The scanners of
nested values take fuel; three units for each character suffice, because between
two characters at most three of them call each other.
-/
namespace DocTree.Json

def isSpace (c : Char) : Bool := c == ' ' || c == '\t' || c == '\n' || c == '\r'

def skipSpace (cs : List Char) : List Char := cs.dropWhile isSpace

def scanWord : List Char → List Char → Except Breach (List Char)
  | [], cs => .ok cs
  | _ :: _, [] => .error .wordEnded
  | w :: ws, c :: cs => if c = w then scanWord ws cs else .error .wrongWord

def wordValue (j : Json) (word cs : List Char) : Json × Option (List Char) :=
  match scanWord word cs with
  | .ok rest => (j, some rest)
  | .error b => (.broken b, none)

def numberValue (cs : List Char) : Json × Option (List Char) :=
  match Numeral.scan cs with
  | .ok (n, rest) => (.number n, some rest)
  | .error b => (.broken b, none)

structure Parts (α : Type) where
  parts : List α
  ending : Ending
  rest : Option (List Char)

def Parts.cons {α : Type} (a : α) (p : Parts α) : Parts α := ⟨a :: p.parts, p.ending, p.rest⟩

def Parts.last {α : Type} (a : α) (e : Ending) (rest : Option (List Char)) : Parts α :=
  ⟨[a], e, rest⟩

mutual

def scanValue : Nat → List Char → Json × Option (List Char)
  | 0, _ => (.broken .noValue, none)
  | fuel + 1, cs =>
      match skipSpace cs with
      | [] => (.broken .noValue, none)
      | c :: r =>
          if c = '"' then
            let s := Literal.scan r
            (.text s.1, s.2)
          else if c = '[' then
            let p := scanItems fuel r
            (.list p.parts p.ending, p.rest)
          else if c = '\x7b' then
            let p := scanMembers fuel r
            (.object p.parts p.ending, p.rest)
          else if c = 'n' then wordValue .null ['u', 'l', 'l'] r
          else if c = 't' then wordValue (.boolean true) ['r', 'u', 'e'] r
          else if c = 'f' then wordValue (.boolean false) ['a', 'l', 's', 'e'] r
          else if c = '-' ∨ c.isDigit then numberValue (c :: r)
          else (.broken .strayValue, none)

def scanItems : Nat → List Char → Parts Json
  | 0, _ => ⟨[], .broken .listEnded, none⟩
  | fuel + 1, cs =>
      match skipSpace cs with
      | [] => ⟨[], .broken .listEnded, none⟩
      | c :: r => if c = ']' then ⟨[], .closed, some r⟩ else scanItem fuel (c :: r)

def scanItem : Nat → List Char → Parts Json
  | 0, _ => ⟨[], .broken .listEnded, none⟩
  | fuel + 1, cs =>
      let v := scanValue fuel cs
      match v.2 with
      | none => .last v.1 .unreached none
      | some rest =>
          match skipSpace rest with
          | [] => .last v.1 (.broken .listEnded) none
          | c :: r =>
              if c = ']' then .last v.1 .closed (some r)
              else if c = ',' then
                match skipSpace r with
                | [] => .last v.1 (.broken .listEndedAfterComma) none
                | d :: s =>
                    if d = ']' then .last v.1 (.broken .listTrailingComma) none
                    else .cons v.1 (scanItem fuel (d :: s))
              else .last v.1 (.broken .listUnseparated) none

def scanMembers : Nat → List Char → Parts Member
  | 0, _ => ⟨[], .broken .objectEnded, none⟩
  | fuel + 1, cs =>
      match skipSpace cs with
      | [] => ⟨[], .broken .objectEnded, none⟩
      | c :: r =>
          if c = '\x7d' then ⟨[], .closed, some r⟩
          else if c = '"' then scanMember fuel r
          else ⟨[], .broken .keyNotText, none⟩

def scanMember : Nat → List Char → Parts Member
  | 0, _ => ⟨[], .broken .objectEnded, none⟩
  | fuel + 1, cs =>
      let key := Literal.scan cs
      let v := scanMemberValue fuel key.2
      match v.2 with
      | none => .last (key.1, v.1) .unreached none
      | some rest =>
          match skipSpace rest with
          | [] => .last (key.1, v.1) (.broken .objectEnded) none
          | c :: r =>
              if c = '\x7d' then .last (key.1, v.1) .closed (some r)
              else if c = ',' then
                match skipSpace r with
                | [] => .last (key.1, v.1) (.broken .objectEndedAfterComma) none
                | d :: s =>
                    if d = '\x7d' then .last (key.1, v.1) (.broken .objectTrailingComma) none
                    else if d = '"' then .cons (key.1, v.1) (scanMember fuel s)
                    else .last (key.1, v.1) (.broken .keyNotText) none
              else .last (key.1, v.1) (.broken .objectUnseparated) none

def scanMemberValue : Nat → Option (List Char) → Json × Option (List Char)
  | 0, _ => (.broken .objectEnded, none)
  | _, none => (.broken .objectEnded, none)
  | fuel + 1, some cs =>
      match skipSpace cs with
      | [] => (.broken .objectEnded, none)
      | c :: r => if c = ':' then scanValue fuel r else (.broken .colonMissing, none)

end

/-- A whole text: one value, and whether anything but space follows it. -/
structure Document where
  root : Json
  trailing : Bool
  deriving DecidableEq

def Document.ofChars (cs : List Char) : Document :=
  let v := scanValue (3 * cs.length + 3) cs
  ⟨v.1, v.2.any (fun rest => !(skipSpace rest).isEmpty)⟩

def Document.ofText (s : String) : Document := .ofChars s.toList

end DocTree.Json
