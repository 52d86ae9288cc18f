import DocTree.Command.Disk
import DocTree.Command.FileName

/-!
# File trees

A file tree is a file system as a value. A place is the way from the root to an
entry, last step first, so that the directory of an entry is the tail of its
place. A name is followed one part at a time; each part needs a directory to
start from.
-/
namespace DocTree.Command

inductive Content where
  | text (s : String)
  | binary (bytes : List UInt8)
  deriving DecidableEq, Repr

inductive Entry where
  | file (c : Content)
  | directory
  deriving DecidableEq, Repr

abbrev Place := List String

structure FileTree where
  entries : List (Place × Entry)
  here : Place
  /-- The directories that cannot be listed. What is in them can be reached by its name. -/
  closed : List Place := []
  deriving Repr

namespace FileTree

def entry? (t : FileTree) (p : Place) : Option Entry :=
  match p with
  | [] => some .directory
  | _ => t.entries.lookup p

def set (t : FileTree) (p : Place) (e : Entry) : FileTree :=
  { t with entries := t.entries.filter (·.1 != p) ++ [(p, e)] }

def isDirectory (t : FileTree) (p : Place) : Bool := t.entry? p == some .directory

def go (p : Place) (part : String) : Place :=
  if part = "" ∨ part = "." then p else if part = ".." then p.tail else part :: p

def follow (t : FileTree) : Place → List String → Option Place
  | p, [] => some p
  | p, part :: parts => if t.isDirectory p then t.follow (go p part) parts else none

def start (t : FileTree) (name : String) : Place := if isRooted name then [] else t.here

def place? (t : FileTree) (name : String) : Option Place :=
  if name.isEmpty then none else t.follow (t.start name) (nameParts name)

def find? (t : FileTree) (name : String) : Option Entry := (t.place? name).bind t.entry?

def kind (t : FileTree) (name : String) : FileKind :=
  match t.find? name with
  | some (.file _) => .file
  | some .directory => .directory
  | none => .missing

def namesAt (t : FileTree) (p : Place) : List String :=
  t.entries.filterMap fun e =>
    match e.1 with
    | name :: q => if q = p then some name else none
    | [] => none

def isListed (t : FileTree) (p : Place) : Bool := t.isDirectory p && !t.closed.contains p

def names (t : FileTree) (name : String) : Option (List String) :=
  (t.place? name).bind fun p => if t.isListed p then some (t.namesAt p) else none

def read (t : FileTree) (name : String) : Except ReadFault String :=
  match t.find? name with
  | some (.file (.text s)) => .ok s
  | some (.file (.binary _)) => .error .notText
  | some .directory => .error .directory
  | none => .error .missing

def makeAlong (t : FileTree) : Place → List String → Bool × FileTree
  | _, [] => (true, t)
  | p, part :: parts =>
      let q := go p part
      match t.entry? q with
      | some .directory => t.makeAlong q parts
      | some (.file _) => (false, t)
      | none => (t.set q .directory).makeAlong q parts

/-- The parts of a name along which directories are made. A directory that is named with a dot
behind it has to be there already. -/
def madeParts (parts : List String) : List String :=
  match parts.reverse.dropWhile (· == "") with
  | "." :: before => ((before.dropWhile fun p => p == "" || p == ".").drop 1).reverse
  | _ => parts

def makeDirectories (t : FileTree) (name : String) : Bool × FileTree :=
  let (made, t) := t.makeAlong (t.start name) (madeParts (nameParts name))
  (made && t.kind name == .directory, t)

def write (t : FileTree) (name text : String) : Bool × FileTree :=
  match t.place? name with
  | some (last :: p) =>
      if t.isDirectory p && !t.isDirectory (last :: p) then
        (true, t.set (last :: p) (.file (.text text)))
      else (false, t)
  | _ => (false, t)

def rootedName (p : Place) : String := "/" ++ "/".intercalate p.reverse

def disk : Disk (StateM FileTree) where
  here := do return some (rootedName (← get).here)
  kind name := do return (← get).kind name
  names name := do return (← get).names name
  read name := do return (← get).read name
  makeDirectories name := modifyGet fun t => t.makeDirectories name
  write name text := modifyGet fun t => t.write name text

end FileTree

end DocTree.Command
