import DocTree.Entry.Basic
import DocTree.Options
import DocTree.Path
import DocTree.Renderer
import DocTree.TypeText

/-!
# Describing a project

Each reflection is described on its own: its header from its name, comment,
first source and flags, then what its kind of entry shows. Members and parameters
that are not exported are left out unless the options ask for them, and every one
is judged by its own flag.
-/
namespace DocTree.Entry

structure Settings where
  renderer : Renderer
  options : Options
  directory : String
  deriving Repr

namespace Settings

def admits (s : Settings) (r : Reflection) : Bool := s.options.includeNonExported || r.isExported

def fileName (s : Settings) (r : Reflection) : Option String := do
  let source ← r.sources.head?
  let full ← source.fullFileName
  return relativePath s.directory full

def header (s : Settings) (r : Reflection) : Header where
  documentation := r.comment.map fun c => s.renderer.render c.documentation
  fileName := s.fileName r
  marks := r.flags.map fun f => ⟨r.deprecation, f⟩
  name := r.name

def parameter (s : Settings) (r : Reflection) : Parameter :=
  ⟨s.header r, r.defaultText, r.typeText⟩

def property (s : Settings) (r : Reflection) : Property :=
  ⟨s.header r, r.defaultText, r.typeText⟩

def signature (s : Settings) (r : Reflection) : Signature where
  header := s.header r
  parameters := (r.parameters.filter s.admits).map s.parameter
  returnType := r.typeText
  type := r.signatureText

def method (s : Settings) (r : Reflection) : Method :=
  ⟨s.header r, r.signatures.map s.signature⟩

def container (s : Settings) (k : ContainerKind) (r : Reflection) : Container where
  kind := k
  header := s.header r
  methods := ((r.childrenOfKind .method).filter s.admits).map s.method
  properties := ((r.childrenOfKind .property).filter s.admits).map s.property

/-- All interfaces below the root, then all classes. -/
def project (s : Settings) (r : Reflection) : List Container :=
  (r.descendantsOfKind .interface).map (s.container .interface) ++
    (r.descendantsOfKind .classType).map (s.container .classType)

end Settings

end DocTree.Entry
