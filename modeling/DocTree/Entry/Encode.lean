import DocTree.Entry.Basic
import DocTree.Json.Value

/-!
# Entries as JSON

An entry is an object: its header's members first, then its own. What is absent
has no member.
-/
namespace DocTree

open Json (Value)

def absentOr {α : Type} (key : String) (encode : α → Value) : Option α → List (String × Value)
  | none => []
  | some a => [(key, encode a)]

def Deprecation.encode : Deprecation → Value
  | .bare => .boolean true
  | .reason text => .text text

def Flags.encodeMembers (f : Flags) : List (String × Value) :=
  absentOr "isExported" .boolean f.isExported ++ absentOr "isExternal" .boolean f.isExternal ++
    absentOr "isOptional" .boolean f.isOptional ++ absentOr "isPrivate" .boolean f.isPrivate ++
    absentOr "isProtected" .boolean f.isProtected ++ absentOr "isPublic" .boolean f.isPublic ++
    absentOr "isRest" .boolean f.isRest ++ absentOr "isStatic" .boolean f.isStatic

namespace Entry

def Marks.encode (m : Marks) : Value :=
  .object (absentOr "isDeprecated" Deprecation.encode m.deprecation ++ m.flags.encodeMembers)

/-- The members of the header, with the kind of the entry before its name. -/
def Header.encodeMembers (kind : String) (h : Header) : List (String × Value) :=
  absentOr "documentation" .text h.documentation ++ absentOr "fileName" .text h.fileName ++
    absentOr "flags" Marks.encode h.marks ++ [("kind", .text kind), ("name", .text h.name)]

def Parameter.encode (p : Parameter) : Value :=
  .object (p.header.encodeMembers "Parameter" ++ absentOr "defaultValue" .text p.defaultValue ++
    [("type", .text p.type)])

def Property.encode (p : Property) : Value :=
  .object (p.header.encodeMembers "Property" ++ absentOr "defaultValue" .text p.defaultValue ++
    [("type", .text p.type)])

def Signature.encode (s : Signature) : Value :=
  .object (s.header.encodeMembers "Signature" ++
    [("parameters", .list (s.parameters.map Parameter.encode)),
      ("returnType", .text s.returnType), ("type", .text s.type)])

def Method.encode (m : Method) : Value :=
  .object (m.header.encodeMembers "Method" ++
    [("signatures", .list (m.signatures.map Signature.encode))])

def ContainerKind.name : ContainerKind → String
  | interface => "Interface"
  | .classType => "Class"

def Container.encode (c : Container) : Value :=
  .object (c.header.encodeMembers c.kind.name ++
    [("methods", .list (c.methods.map Method.encode)),
      ("properties", .list (c.properties.map Property.encode))])

def encodeAll (cs : List Container) : Value := .list (cs.map Container.encode)

def fileText (l : Json.Layout) (cs : List Container) : String := (encodeAll cs).write l ++ "\n"

end Entry

end DocTree
