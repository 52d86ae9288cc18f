import DocTree.Path

/-!
# Names of files

A name is a text with slashes. Two names with the same components stand for the
same file; a leading dot is a component of its own. Names are ordered by their
components.
-/
namespace DocTree.Command

def nameParts (s : String) : List String := (Path.splitSlash s.toList).map String.ofList

def isRooted (s : String) : Bool := s.toList.head? == some '/'

def joinName (directory name : String) : String :=
  if isRooted name then name
  else if directory.isEmpty || directory.toList.getLast? == some '/' then directory ++ name
  else directory ++ "/" ++ name

abbrev Component := Nat × String

def component (part : String) : Component := if part = ".." then (2, part) else (3, part)

def components (s : String) : List Component :=
  let parts := nameParts s
  let named := (parts.filter fun p => p != "" && p != ".").map component
  if isRooted s then (0, "/") :: named
  else if parts.head? == some "." then (1, ".") :: named
  else named

def componentsLE : List Component → List Component → Bool
  | [], _ => true
  | _ :: _, [] => false
  | (m, a) :: as, (n, b) :: bs =>
      if m = n ∧ a = b then componentsLE as bs else m < n || (m == n && a < b)

def dropRepeats (same : String → String → Bool) : List String → List String
  | [] => []
  | a :: as =>
      match dropRepeats same as with
      | [] => [a]
      | b :: bs => if same a b then a :: bs else a :: b :: bs

def insertName (a : String) : List String → List String
  | [] => [a]
  | b :: bs =>
      if componentsLE (components a) (components b) then a :: b :: bs else b :: insertName a bs

/-- The names in the order of their components, each file named once and as it was named first. -/
def sortNames (names : List String) : List String :=
  dropRepeats (fun a b => components a == components b) (names.foldr insertName [])

def entryName? (s : String) : Option String :=
  ((nameParts s).filter fun p => p != "" && p != ".").getLast?.filter (· != "..")

/-- A file name without its extension: what stands before the last point, unless that is nothing. -/
def stemChars (cs : List Char) : List Char :=
  match cs.reverse.dropWhile (· != '.') with
  | _ :: before => if before.isEmpty then cs else before.reverse
  | [] => cs

def outputStem (input : String) : String :=
  match entryName? input with
  | some name => String.ofList (stemChars name.toList)
  | none => "project"

def outputName (input : String) : String := outputStem input ++ ".docs.json"

/-- Whether an entry of a directory is taken for a project: a JSON file that is not an output. -/
def isProjectName (name : String) : Bool :=
  ".json".toList.isSuffixOf name.toList && !".docs.json".toList.isSuffixOf name.toList

end DocTree.Command
