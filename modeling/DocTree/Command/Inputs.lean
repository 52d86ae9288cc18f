import DocTree.Command.Disk
import DocTree.Command.FileName
import DocTree.Command.Pattern

/-!
# From file arguments to files

An argument that names a file stands for it, whatever its name; one that names a
directory stands for the projects directly in it, and has to be listed. Any other
argument is a pattern. A pattern is followed part by part from the working
directory or from the root: a part without special characters leads to one entry,
any other part to those entries of the directory that it matches. A directory
that cannot be listed leads a pattern nowhere.
-/
namespace DocTree.Command

variable {m : Type → Type} [Monad m]

def isHere (name : String) : Bool := components name == [(1, ".")]

/-- The name of an entry met on the way; in the working directory it stands alone. -/
def entryName (directory name : String) : String :=
  if isHere directory then name else joinName directory name

def mergeDeep : List PatternPart → List PatternPart
  | p :: q :: ps => if p.isDeep && q.isDeep then mergeDeep (q :: ps) else p :: q :: ps
  | ps => ps

namespace View

def isFile (v : View m) (name : String) : m Bool := do return (← v.kind name) == .file

def isDirectory (v : View m) (name : String) : m Bool := do return (← v.kind name) == .directory

def isPresent (v : View m) (name : String) : m Bool := do return (← v.kind name) != .missing

mutual

/-- What the parts lead to from a directory. Each step down uses up one unit of the first
argument. -/
def follow (v : View m) : Nat → List PatternPart → String → m (List String)
  | 0, _, _ => pure []
  | _, [], path => pure [path]
  | fuel + 1, part :: parts, path =>
      match part.literal? with
      | some name => do
          let next := entryName path name
          let there ←
            if name == "." || name == ".." then v.isDirectory path else v.isPresent next
          if there then v.follow fuel parts next else return []
      | none => do
          if ← v.isDirectory path then
            match ← v.names path with
            | none => return []
            | some names => do
                let dots ← (part.dotNames).mapM fun name => v.follow fuel parts (joinName path name)
                let found ← names.mapM fun name =>
                  v.visit fuel (part :: parts) name (entryName path name)
                return dots.flatten ++ found.flatten
          else return []

def visit (v : View m) : Nat → List PatternPart → String → String → m (List String)
  | 0, _, _, _ => pure []
  | fuel + 1, parts, name, path =>
      match mergeDeep parts with
      | [] => pure []
      | part :: parts => do
          if part.isDeep then
            let entered ← v.enter fuel parts name path
            let below ← if ← v.isDirectory path then v.follow fuel (part :: parts) path else pure []
            return entered ++ below
          else v.enter fuel (part :: parts) name path

def enter (v : View m) : Nat → List PatternPart → String → String → m (List String)
  | 0, _, _, _ => pure []
  | _, [], _, _ => pure []
  | fuel + 1, part :: parts, name, path =>
      if part.matchesText name then v.follow fuel parts path else pure []

end

end View

/-- How far a pattern is followed. A file system takes names of at most 4096 bytes, so no entry is
deeper; going down one level takes three steps, and each part may lead up again. -/
def Pattern.maxSteps (p : Pattern) : Nat := (3 * 4096 + 1) * (p.parts.length + 1)

def View.filesLike (v : View m) (p : Pattern) : m (List String) := do
  if p.directory then return []
  let found ← v.follow p.maxSteps p.parts (if p.rooted then "/" else ".")
  found.filterM v.isFile

inductive Refusal where
  | malformedPattern (pattern : String)
  | unlistedDirectory (name : String)
  deriving DecidableEq, Repr

def Refusal.message : Refusal → String
  | malformedPattern pattern => "invalid glob pattern: " ++ pattern
  | unlistedDirectory name => "failed to read directory: " ++ name

inductive Expansion where
  | files (names : List String)
  | unmatched
  | refused (cause : Refusal)
  deriving DecidableEq, Repr

def View.expand (v : View m) (argument : String) : m Expansion := do
  match ← v.kind argument with
  | .file => return .files [argument]
  | .directory =>
      match ← v.names argument with
      | none => return .refused (.unlistedDirectory argument)
      | some names =>
          let projects := (names.filter isProjectName).map (joinName argument)
          return .files (← projects.filterM v.isFile)
  | .missing =>
      match Pattern.ofText? argument with
      | none => return .refused (.malformedPattern argument)
      | some p =>
          match ← v.filesLike p with
          | [] => return .unmatched
          | files => return .files files

structure Inputs where
  files : List String
  unmatched : List String
  refused : Option Refusal
  deriving DecidableEq, Repr

def View.inputs (v : View m) : List String → m Inputs
  | [] => return ⟨[], [], none⟩
  | a :: as => do
      match ← v.expand a with
      | .refused cause => return ⟨[], [], some cause⟩
      | .unmatched =>
          let rest ← v.inputs as
          return { rest with unmatched := a :: rest.unmatched }
      | .files names =>
          let rest ← v.inputs as
          return { rest with files := names ++ rest.files }

end DocTree.Command
