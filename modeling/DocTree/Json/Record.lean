import DocTree.Json.Check
import DocTree.Json.Reader

/-!
# Reading typed values from a tree

A reader of a record is given the record's shape and a reader for each field. It
accepts the object form, whose members come in any order, each field at most
once, and the array form, whose items are the fields in declared order. A field
is what the shape says its key stands for; other members are passed over.
-/
namespace DocTree.Json

/-- Whether a value is read straight from the text or was checked and kept before any part of it
was read. -/
inductive Regime where
  | direct
  | kept
  deriving DecidableEq, Repr

def mismatch {α : Type} (expected : String) : Json → Except Fault α
  | .null => .error (.invalidType .null expected)
  | .boolean b => .error (.invalidType (.boolean b) expected)
  | .number n => do
      let v ← n.value
      .error (.invalidType v.found expected)
  | .text t => do
      let s ← t.read
      .error (.invalidType (.text s) expected)
  | .list _ _ => .error (.invalidType .sequence expected)
  | .object _ _ => .error (.invalidType .map expected)
  | .broken b => .error (b.fault .decoding)

def readText : Json → Except Fault String
  | .text t => t.read
  | j => j.mismatch "a string"

def readBool : Json → Except Fault Bool
  | .boolean b => .ok b
  | j => j.mismatch "a boolean"

def readWord : Json → Except Fault UInt32
  | .number n => do
      match ← n.value with
      | .integer i =>
          if 0 ≤ i ∧ i < 0x100000000 then return i.toNat.toUInt32
          else .error (.invalidValue (.integer i) "u32")
      | v => .error (.invalidType v.found "u32")
  | j => j.mismatch "u32"

def readOption {α : Type} (read : Json → Except Fault α) : Json → Except Fault (Option α)
  | .null => .ok none
  | j => (read j).map some

def readList {α : Type} (read : Option (Json → Except Fault α)) : Json → Except Fault (List α)
  | .list items e =>
      match read with
      | none => .error (.malformed .tooDeep)
      | some read => do
          let xs ← items.mapM read
          e.check .decoding
          return xs
  | j => j.mismatch "a sequence"

structure Shape (κ : Type) where
  title : String
  keys : List κ
  name : κ → String
  mayEndBefore : κ → Bool
  field? : String → Option κ

abbrev Fields {κ : Type} (τ : κ → Type) := (k : κ) → Option (τ k)

def Fields.none {κ : Type} {τ : κ → Type} : Fields τ := fun _ => .none

def Fields.set {κ : Type} [DecidableEq κ] {τ : κ → Type} (f : Fields τ) (k : κ) (v : τ k) :
    Fields τ :=
  fun l => if h : k = l then some (h ▸ v) else f l

def countOf (n : Nat) : String := toString n ++ (if n = 1 then " element" else " elements")

def Shape.arrayTitle {κ : Type} (s : Shape κ) : String :=
  s.title ++ " with " ++ countOf s.keys.length

section Record

variable {κ : Type} [DecidableEq κ] {τ : κ → Type}

def readMembers (s : Shape κ) (read : (k : κ) → Json → Except Fault (τ k)) :
    Fields τ → List Member → Except Fault (Fields τ)
  | f, [] => .ok f
  | f, (key, j) :: ms => do
      let name ← key.read
      match s.field? name with
      | .none => do
          j.skip
          readMembers s read f ms
      | some k =>
          if (f k).isSome then .error (.duplicateField (s.name k))
          else do
            let v ← read k j
            readMembers s read (f.set k v) ms

/-- Reads items as the fields `ks`, of which the first has the position `i`, and returns the items
left over. -/
def readItems (s : Shape κ) (read : (k : κ) → Json → Except Fault (τ k)) (e : Ending) :
    List κ → Nat → Fields τ → List Json → Except Fault (Fields τ × List Json)
  | [], _, f, items => .ok (f, items)
  | k :: ks, i, f, [] => do
      e.check .decoding
      if s.mayEndBefore k then readItems s read e ks (i + 1) f []
      else .error (.invalidLength i s.arrayTitle)
  | k :: ks, i, f, j :: js => do
      let v ← read k j
      readItems s read e ks (i + 1) (f.set k v) js

/-- Expects a list to end after the items that were wanted, `wanted` of `total` in number. -/
def Regime.finish (wanted total : Nat) (surplus : List Json) (e : Ending) :
    Regime → Except Fault Unit
  | .direct =>
      match surplus with
      | [] => e.check .closing
      | _ :: _ => .error (.malformed .trailingCharacters)
  | .kept =>
      match surplus with
      | [] => .ok ()
      | _ :: _ => .error (.invalidLength total (countOf wanted ++ " in sequence"))

def readArrayForm (g : Regime) (s : Shape κ) (read : (k : κ) → Json → Except Fault (τ k))
    (items : List Json) (e : Ending) : Except Fault (Fields τ) := do
  let (f, surplus) ← readItems s read e s.keys 0 Fields.none items
  g.finish s.keys.length items.length surplus e
  return f

def readObjectForm (s : Shape κ) (read : (k : κ) → Json → Except Fault (τ k))
    (members : List Member) (e : Ending) : Except Fault (Fields τ) := do
  let f ← readMembers s read Fields.none members
  e.check .decoding
  return f

def readRecord {α : Type} (g : Regime) (s : Shape κ)
    (read : Option ((k : κ) → Json → Except Fault (τ k)))
    (build : Fields τ → Except Fault α) (j : Json) : Except Fault α :=
  match j, read with
  | .list _ _, .none | .object _ _, .none => .error (.malformed .tooDeep)
  | .list items e, some read => readArrayForm g s read items e >>= build
  | .object members e, some read => readObjectForm s read members e >>= build
  | j, _ => j.mismatch s.title

end Record

def optional {α : Type} (v : Option (Option α)) : Option α := v.join

def required {α : Type} (name : String) : Option α → Except Fault α
  | some a => .ok a
  | none => .error (.missingField name)

def Document.decode {α : Type} (read : Json → Except Fault α) (d : Document) : Except Fault α := do
  let a ← read d.root
  if d.trailing then .error (.malformed .trailingCharacters) else return a

end DocTree.Json
