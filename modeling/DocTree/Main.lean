import DocTree.Command.Run

/-!
# The program

The command on the real file system. Warnings and errors go to the standard error
stream.
-/
namespace DocTree

open Command

def fileKind (name : String) : IO FileKind := do
  if name.isEmpty then return .missing
  try
    match (← ((← IO.currentDir) / name).metadata).type with
    | .dir => return .directory
    | .file => return .file
    | _ => return .missing
  catch _ => return .missing

def entryNames (name : String) : IO (Option (List String)) := do
  try
    let entries ← ((← IO.currentDir) / name).readDir
    return some (entries.map (·.fileName)).toList
  catch _ => return none

def readText (name : String) : IO (Except ReadFault String) := do
  try
    match String.fromUTF8? (← IO.FS.readBinFile name) with
    | some text => return .ok text
    | none => return .error .notText
  catch e => return .error (.refused (toString e))

def succeeds (act : IO Unit) : IO Bool := do
  try
    act
    return true
  catch _ => return false

def fileSystem : Disk IO where
  here := do
    try return some (← IO.currentDir).toString
    catch _ => return none
  kind := fileKind
  names := entryNames
  read := readText
  makeDirectories name := succeeds (IO.FS.createDirAll name)
  write name text := succeeds (IO.FS.writeFile name text)

def standardInput : IO (Option String) := do
  try return some (← (← IO.getStdin).readToEnd)
  catch _ => return none

end DocTree

def main (arguments : List String) : IO UInt32 := do
  let outcome ← DocTree.Command.run DocTree.fileSystem DocTree.standardInput arguments
  for w in outcome.warnings do
    IO.eprintln ("WARN " ++ w.message)
  match outcome.status with
  | .done => pure ()
  | .failed f => IO.eprintln ("Error: " ++ f.message)
  | .misused => IO.eprint DocTree.Command.misuseText
  IO.print outcome.output
  return outcome.status.exitCode.toUInt32
