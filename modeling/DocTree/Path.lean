/-!
# Lexical paths

A path is read into its steps; empty parts and single dots say nothing. Cleaning
takes back a step into a directory when a step up follows it. Nothing here looks
at a file system.
-/
namespace DocTree

inductive Step where
  | up
  | into (name : String)
  deriving DecidableEq, Repr

def Step.text : Step → String
  | .up => ".."
  | .into name => name

structure Path where
  rooted : Bool
  steps : List Step
  deriving DecidableEq, Repr

namespace Path

def splitSlash : List Char → List (List Char)
  | [] => [[]]
  | c :: cs =>
      match splitSlash cs with
      | [] => [[c]]
      | part :: parts => if c = '/' then [] :: part :: parts else (c :: part) :: parts

def stepOfPart (part : List Char) : Option Step :=
  match part with
  | [] | ['.'] => none
  | ['.', '.'] => some .up
  | name => some (.into (String.ofList name))

def ofText (s : String) : Path :=
  let cs := s.toList
  ⟨cs.head? == some '/', (splitSlash cs).filterMap stepOfPart⟩

def join (p q : Path) : Path := if q.rooted then q else ⟨p.rooted, p.steps ++ q.steps⟩

def pushStep (rooted : Bool) (done : List Step) : Step → List Step
  | .into name => .into name :: done
  | .up =>
      match done with
      | .into _ :: rest => rest
      | [] => if rooted then [] else [.up]
      | .up :: _ => .up :: done

def clean (p : Path) : Path := ⟨p.rooted, (p.steps.foldl (pushStep p.rooted) []).reverse⟩

def parts (p : Path) : List String :=
  match p.rooted, p.steps with
  | true, steps => "/" :: steps.map Step.text
  | false, [] => ["."]
  | false, steps => steps.map Step.text

def text (p : Path) : String :=
  let s := "/".intercalate (p.steps.map Step.text)
  if p.rooted then "/" ++ s else if p.steps.isEmpty then "." else s

def commonLength : List String → List String → Nat
  | a :: as, b :: bs => if a = b then commonLength as bs + 1 else 0
  | _, _ => 0

/-- The way from `base` to `target`, which is taken to start at `base` unless it is rooted. A
target that shares no root with the base is given whole. -/
def relative (base target : Path) : String :=
  let target := (base.join target).clean
  let base := base.clean
  if base.rooted ≠ target.rooted then target.text
  else
    let common := commonLength base.parts target.parts
    let way := List.replicate (base.parts.length - common) ".." ++ target.parts.drop common
    if way.isEmpty then "." else "/".intercalate way

end Path

def relativePath (base target : String) : String := (Path.ofText base).relative (Path.ofText target)

end DocTree
