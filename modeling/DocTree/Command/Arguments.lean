/-!
# Command line arguments

Options stand anywhere among the file arguments; behind a lone `--` everything is
a file. Each option is given at most once, its value behind it, behind an equals
sign or, for a short option, attached to its letter.
-/
namespace DocTree.Command

structure Arguments where
  files : List String
  output : Option String
  renderer : Option String
  includeNonExported : Bool
  options : Option String
  directory : Option String
  compact : Bool
  deriving DecidableEq, Repr

def Arguments.none : Arguments := ⟨[], .none, .none, false, .none, .none, false⟩

def Arguments.rendererName (a : Arguments) : String := a.renderer.getD "markdown"

inductive Request where
  | convert (a : Arguments)
  | help
  deriving DecidableEq, Repr

inductive Setting where
  | output | renderer | options | directory
  deriving DecidableEq, Repr

inductive Switch where
  | includeNonExported | compact
  deriving DecidableEq, Repr

inductive Word where
  | file
  | rest
  | help
  | switch (s : Switch)
  | setting (s : Setting) (value : Option String)
  | unknown
  deriving DecidableEq, Repr

def longWord (cs : List Char) : Word :=
  let name := String.ofList (cs.takeWhile (· != '='))
  let value := match cs.dropWhile (· != '=') with
    | [] => Option.none
    | _ :: v => some (String.ofList v)
  match name, value with
  | "output", v => .setting .output v
  | "renderer", v => .setting .renderer v
  | "options", v => .setting .options v
  | "cwd", v => .setting .directory v
  | "include-non-exported", .none => .switch .includeNonExported
  | "compact", .none => .switch .compact
  | "help", .none => .help
  | _, _ => .unknown

def attached : List Char → Option String
  | [] => .none
  | '=' :: v => some (String.ofList v)
  | v => some (String.ofList v)

def Word.ofArgument (a : String) : Word :=
  match a.toList with
  | ['-', '-'] => .rest
  | '-' :: '-' :: cs => longWord cs
  | '-' :: 'o' :: v => .setting .output (attached v)
  | '-' :: 'r' :: v => .setting .renderer (attached v)
  | '-' :: 'h' :: _ => .help
  | '-' :: _ :: _ => .unknown
  | _ => .file

namespace Arguments

def turnOn (a : Arguments) : Switch → Option Arguments
  | .includeNonExported =>
      if a.includeNonExported then .none else some { a with includeNonExported := true }
  | .compact => if a.compact then .none else some { a with compact := true }

/-- Sets an option that is not set yet. A path must not be empty. -/
def set (a : Arguments) (s : Setting) (v : String) : Option Arguments :=
  match s with
  | .renderer => if a.renderer.isSome then .none else some { a with renderer := some v }
  | .output =>
      if a.output.isSome ∨ v.isEmpty then .none else some { a with output := some v }
  | .options =>
      if a.options.isSome ∨ v.isEmpty then .none else some { a with options := some v }
  | .directory =>
      if a.directory.isSome ∨ v.isEmpty then .none else some { a with directory := some v }

end Arguments

/-- Reads arguments on top of those already read; `none` when they are not accepted. -/
def readArguments (a : Arguments) : List String → Option Request
  | [] => some (.convert a)
  | w :: ws =>
      match Word.ofArgument w with
      | .file => readArguments { a with files := a.files ++ [w] } ws
      | .rest => some (.convert { a with files := a.files ++ ws })
      | .help => some .help
      | .switch s =>
          match a.turnOn s with
          | some a => readArguments a ws
          | .none => .none
      | .setting s (some v) =>
          match a.set s v with
          | some a => readArguments a ws
          | .none => .none
      | .setting s .none =>
          match ws with
          | [] => .none
          | v :: ws =>
              if Word.ofArgument v = .file then
                match a.set s v with
                | some a => readArguments a ws
                | .none => .none
              else .none
      | .unknown => .none

def usageLine : String := "Usage: refdoc [OPTIONS] [FILES]..."

def helpText : String := "\n".intercalate [
  "Convert a TypeDoc JSON project into a simplified document model",
  "",
  usageLine,
  "",
  "Arguments:",
  "  [FILES]...  Project JSON files (glob patterns and directories supported). " ++
    "If omitted, reads from stdin",
  "",
  "Options:",
  "  -o, --output <OUTPUT>       Output directory (required when files are given)",
  "  -r, --renderer <RENDERER>   Documentation renderer: markdown (default), plain " ++
    "[default: markdown]",
  "      --include-non-exported  Include members that are not exported",
  "      --options <OPTIONS>     JSON options file (e.g. typedoc.json); " ++
    "only includeNonExported is read",
  "      --cwd <CWD>             Directory source file names are made relative to " ++
    "(default: current directory)",
  "      --compact               Write single-line JSON",
  "  -h, --help                  Print help",
  ""]

def misuseText : String := usageLine ++ "\n\nFor more information, try '--help'.\n"

def Request.ofArguments (ws : List String) : Option Request := readArguments Arguments.none ws

end DocTree.Command
