import DocTree.Command.Arguments
import DocTree.Command.Inputs
import DocTree.Entry.Describe
import DocTree.Entry.Encode
import DocTree.Reflection.Decode
import DocTree.Text.Terminal

/-!
# A run of the command

A run first settles how to describe projects: the options file, the working
directory and the renderer, in this order. Without file arguments it then
converts the project on the standard input to the standard output, and with file
arguments every project that they stand for to a file in the output directory.
An input that cannot be read or decoded is skipped with a warning; a file that
cannot be written ends the run.
-/
namespace DocTree.Command

inductive InputFault where
  | unreadable (file : String) (cause : ReadFault)
  | notProject (cause : Json.Fault)
  deriving DecidableEq, Repr

inductive Warning where
  | unmatched (pattern : String)
  | skipped (file : String) (fault : InputFault)
  deriving DecidableEq, Repr

inductive Failure where
  | unreadableOptions (file : String) (cause : ReadFault)
  | malformedOptions (file : String) (cause : Json.Fault)
  | noWorkingDirectory
  | unknownRenderer (name : String)
  | unreadableStandardInput
  | notProject (cause : Json.Fault)
  | noOutputDirectory
  | uncreatedDirectory (name : String)
  | refused (cause : Refusal)
  | unwritten (file : String)
  deriving DecidableEq, Repr

def notProjectMessage : String := "failed to parse reflection graph"

def unreadableMessage (file : String) : String := "failed to read " ++ file

def InputFault.messages : InputFault → List String
  | unreadable file cause => [unreadableMessage file, cause.message]
  | notProject cause => [notProjectMessage, cause.message]

def Warning.message : Warning → String
  | unmatched pattern => Text.terminalText ("no files matched: " ++ pattern)
  | skipped file fault =>
      Text.terminalText ("skipping " ++ file ++ ": " ++ ": ".intercalate fault.messages)

def Failure.message : Failure → String
  | unreadableOptions file _ => "failed to read options file: " ++ file
  | malformedOptions file _ => "failed to load options from " ++ file
  | noWorkingDirectory => "failed to resolve working directory"
  | unknownRenderer name => Renderer.unknownMessage name
  | unreadableStandardInput => "failed to read stdin"
  | notProject _ => notProjectMessage
  | noOutputDirectory => "--output is required when files are given"
  | uncreatedDirectory name => "failed to create output directory: " ++ name
  | refused cause => cause.message
  | unwritten file => "failed to write " ++ file

structure Conversion where
  settings : Entry.Settings
  layout : Json.Layout
  deriving Repr

def Conversion.convert (c : Conversion) (text : String) : Except Json.Fault String :=
  (Reflection.ofText text).map fun r => Entry.fileText c.layout (c.settings.project r)

variable {m : Type → Type} [Monad m]

def readOptions (v : View m) : Option String → m (Except Failure Options)
  | none => return .ok Options.standard
  | some file => do
      match ← v.read file with
      | .error cause => return .error (.unreadableOptions file cause)
      | .ok text =>
          match Options.ofText text with
          | .error cause => return .error (.malformedOptions file cause)
          | .ok o => return .ok o

def directoryFrom (here : String) : Option String → String
  | none => here
  | some d => joinName here d

def Arguments.layout (a : Arguments) : Json.Layout := if a.compact then .compact else .wide

def conversion (v : View m) (a : Arguments) : m (Except Failure Conversion) := do
  match ← readOptions v a.options with
  | .error f => return .error f
  | .ok o =>
      match ← v.here with
      | none => return .error .noWorkingDirectory
      | some here =>
          match Renderer.ofName? a.rendererName with
          | none => return .error (.unknownRenderer a.rendererName)
          | some renderer =>
              let options : Options := ⟨o.includeNonExported || a.includeNonExported⟩
              return .ok ⟨⟨renderer, options, directoryFrom here a.directory⟩, a.layout⟩

inductive Status where
  | done
  | failed (f : Failure)
  | misused
  deriving DecidableEq, Repr

def Status.exitCode : Status → Nat
  | done => 0
  | failed _ => 1
  | misused => 2

structure Outcome where
  status : Status
  output : String
  warnings : List Warning
  deriving DecidableEq, Repr

namespace Outcome

def printed (s : String) : Outcome := ⟨.done, s, []⟩

def misused : Outcome := ⟨.misused, "", []⟩

def failed (f : Failure) : Outcome := ⟨.failed f, "", []⟩

def after (ws : List Warning) (o : Outcome) : Outcome := { o with warnings := ws ++ o.warnings }

end Outcome

namespace Conversion

def standardInput (c : Conversion) : Option String → Outcome
  | none => .failed .unreadableStandardInput
  | some text =>
      match c.convert text with
      | .error cause => .failed (.notProject cause)
      | .ok s => .printed s

def file (c : Conversion) (v : View m) (name : String) : m (Except InputFault String) := do
  match ← v.read name with
  | .error cause => return .error (.unreadable name cause)
  | .ok text => return (c.convert text).mapError .notProject

def files (c : Conversion) (d : Disk m) (output : String) : List String → m Outcome
  | [] => return .printed ""
  | name :: names => do
      match ← c.file d.toView name with
      | .error fault => return (← c.files d output names).after [.skipped name fault]
      | .ok text =>
          let target := joinName output (outputName name)
          if ← d.write target text then c.files d output names
          else return .failed (.unwritten target)

/-- Makes the output directory and converts all that the file arguments stand for. -/
def arguments (c : Conversion) (d : Disk m) (output : Option String) (names : List String) :
    m Outcome := do
  match output with
  | none => return .failed .noOutputDirectory
  | some output =>
      if ← d.makeDirectories output then
        let inputs ← d.inputs names
        let unmatched := inputs.unmatched.map Warning.unmatched
        match inputs.refused with
        | some cause => return (Outcome.failed (.refused cause)).after unmatched
        | none => return (← c.files d output (sortNames inputs.files)).after unmatched
      else return .failed (.uncreatedDirectory output)

end Conversion

def convert (d : Disk m) (standardInput : m (Option String)) (a : Arguments) : m Outcome := do
  match ← conversion d.toView a with
  | .error f => return .failed f
  | .ok c =>
      match a.files with
      | [] => return c.standardInput (← standardInput)
      | files => c.arguments d a.output files

def run (d : Disk m) (standardInput : m (Option String)) (arguments : List String) : m Outcome :=
  match Request.ofArguments arguments with
  | none => return .misused
  | some .help => return .printed helpText
  | some (.convert a) => convert d standardInput a

end DocTree.Command
