/-!
# What the command asks of a file system

The command names files by texts, as the user does. A view says what stands
behind such a name; a disk also changes it. Both may be real or values.
-/
namespace DocTree.Command

inductive FileKind where
  | file
  | directory
  | missing
  deriving DecidableEq, Repr

inductive ReadFault where
  | missing
  | directory
  | notText
  | refused (reason : String)
  deriving DecidableEq, Repr

def ReadFault.message : ReadFault → String
  | missing => "No such file or directory (os error 2)"
  | directory => "Is a directory (os error 21)"
  | notText => "stream did not contain valid UTF-8"
  | refused reason => reason

structure View (m : Type → Type) where
  here : m (Option String)
  kind : String → m FileKind
  /-- The names of the entries of a directory, in any order; `none` when it cannot be listed. -/
  names : String → m (Option (List String))
  read : String → m (Except ReadFault String)

structure Disk (m : Type → Type) extends View m where
  /-- Makes a directory and the directories around it that are missing; `false` when it cannot. -/
  makeDirectories : String → m Bool
  write : String → String → m Bool

end DocTree.Command
