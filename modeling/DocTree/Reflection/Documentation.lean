import DocTree.Reflection.Basic
import DocTree.Text.Blank

/-!
# What a comment says

The tags `default` and `deprecated` say something about the declaration itself.
All other tags belong to its documentation, one line each, after the short and
the long text.
-/
namespace DocTree

def Tag.isDocumentation (t : Tag) : Bool := t.name != "default" && t.name != "deprecated"

def Tag.line (t : Tag) : String := Text.trimEnd ("@" ++ t.name ++ " " ++ t.text)

def Comment.documentation (c : Comment) : String :=
  let lines := (c.tags.filter Tag.isDocumentation).map Tag.line
  c.shortText ++ (if c.text.isEmpty then "" else "\n\n" ++ c.text) ++
    (if lines.isEmpty then "" else "\n\n" ++ "\n".intercalate lines)

/-- That something should no longer be used, with a reason or without. -/
inductive Deprecation where
  | bare
  | reason (text : String)
  deriving DecidableEq, Repr

namespace Reflection

def tag? (r : Reflection) (name : String) : Option Tag := r.comment.bind (·.tag? name)

def defaultText (r : Reflection) : Option String :=
  r.defaultValue <|> (r.tag? "default").map fun t => Text.trim t.text

def deprecation (r : Reflection) : Option Deprecation :=
  (r.tag? "deprecated").map fun t =>
    let text := Text.trim t.text
    if text.isEmpty then .bare else .reason text

end Reflection

end DocTree
