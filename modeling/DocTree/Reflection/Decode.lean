import DocTree.Json.Record
import DocTree.Reflection.Basic

/-!
# Reading a reflection graph from JSON

A reflection, its flags, comment, tags and sources are records. A type is an
object that names its variant under the key `type`, or an array that starts with
the variant; it is checked as a whole and kept before the variant's own fields
are read, so its fields may stand before the variant that they belong to.
-/
namespace DocTree

open Json (Shape Fields Regime Fault Member readRecord readText readBool readWord readOption
  readList optional required)

inductive FlagKey where
  | isExported | isExternal | isOptional | isPrivate | isProtected | isPublic | isRest | isStatic
  deriving DecidableEq, Repr

def FlagKey.name : FlagKey → String
  | .isExported => "isExported"
  | .isExternal => "isExternal"
  | .isOptional => "isOptional"
  | .isPrivate => "isPrivate"
  | .isProtected => "isProtected"
  | .isPublic => "isPublic"
  | .isRest => "isRest"
  | .isStatic => "isStatic"

def FlagKey.all : List FlagKey :=
  [.isExported, .isExternal, .isOptional, .isPrivate, .isProtected, .isPublic, .isRest, .isStatic]

def Flags.shape : Shape FlagKey where
  title := "struct ReflectionFlags"
  keys := FlagKey.all
  name := FlagKey.name
  mayEndBefore _ := false
  field? s := FlagKey.all.find? (·.name == s)

def Flags.ofFields (f : Fields fun _ : FlagKey => Option Bool) : Except Fault Flags :=
  .ok {
    isExported := optional (f .isExported)
    isExternal := optional (f .isExternal)
    isOptional := optional (f .isOptional)
    isPrivate := optional (f .isPrivate)
    isProtected := optional (f .isProtected)
    isPublic := optional (f .isPublic)
    isRest := optional (f .isRest)
    isStatic := optional (f .isStatic) }

def Flags.read (g : Regime) (n : Nat) : Json → Except Fault Flags :=
  readRecord g Flags.shape (if n = 0 then none else some fun _ => readOption readBool)
    Flags.ofFields

inductive TagKey where
  | name | text
  deriving DecidableEq, Repr

def Tag.shape : Shape TagKey where
  title := "struct CommentTag"
  keys := [.name, .text]
  name
    | .name => "tag"
    | .text => "text"
  mayEndBefore k := k == .text
  field? s :=
    if s = "tag" ∨ s = "tagName" then some .name else if s = "text" then some .text else none

def Tag.ofFields (f : Fields fun _ : TagKey => String) : Except Fault Tag := do
  let name ← required "tag" (f .name)
  return ⟨name, (f .text).getD ""⟩

def Tag.read (g : Regime) (n : Nat) : Json → Except Fault Tag :=
  readRecord g Tag.shape (if n = 0 then none else some fun _ => readText) Tag.ofFields

inductive CommentKey where
  | shortText | text | tags
  deriving DecidableEq, Repr

def CommentKey.name : CommentKey → String
  | .shortText => "shortText"
  | .text => "text"
  | .tags => "tags"

def CommentKey.all : List CommentKey := [.shortText, .text, .tags]

abbrev CommentKey.Value : CommentKey → Type
  | .shortText | .text => String
  | .tags => List Tag

def Comment.shape : Shape CommentKey where
  title := "struct Comment"
  keys := CommentKey.all
  name := CommentKey.name
  mayEndBefore _ := true
  field? s := CommentKey.all.find? (·.name == s)

def Comment.ofFields (f : Fields CommentKey.Value) : Except Fault Comment :=
  .ok ⟨(f .shortText).getD "", (f .text).getD "", (f .tags).getD []⟩

def below {α : Type} (read : Nat → α) : Nat → Option α
  | 0 => none
  | n + 1 => some (read n)

def Comment.readField (g : Regime) (n : Nat) : (k : CommentKey) → Json → Except Fault k.Value
  | .shortText | .text => readText
  | .tags => readList (below (Tag.read g) n)

def Comment.read (g : Regime) (n : Nat) : Json → Except Fault Comment :=
  readRecord g Comment.shape (below (Comment.readField g) n) Comment.ofFields

inductive SourceKey where
  | fileName | fullFileName | line | character
  deriving DecidableEq, Repr

def SourceKey.name : SourceKey → String
  | .fileName => "fileName"
  | .fullFileName => "fullFileName"
  | .line => "line"
  | .character => "character"

def SourceKey.all : List SourceKey := [.fileName, .fullFileName, .line, .character]

abbrev SourceKey.Value : SourceKey → Type
  | .fileName => String
  | .fullFileName => Option String
  | .line | .character => UInt32

def Source.shape : Shape SourceKey where
  title := "struct SourceReference"
  keys := SourceKey.all
  name := SourceKey.name
  mayEndBefore k := k != .fullFileName
  field? s := SourceKey.all.find? (·.name == s)

def Source.ofFields (f : Fields SourceKey.Value) : Except Fault Source :=
  .ok ⟨(f .fileName).getD "", optional (f .fullFileName), (f .line).getD 0,
    (f .character).getD 0⟩

def Source.readField : (k : SourceKey) → Json → Except Fault k.Value
  | .fileName => readText
  | .fullFileName => readOption readText
  | .line | .character => readWord

def Source.read (g : Regime) (n : Nat) : Json → Except Fault Source :=
  readRecord g Source.shape (below (fun _ => Source.readField) n) Source.ofFields

inductive TypeTag where
  | intrinsic | reference | array | union | intersection | tuple | stringLiteral | parameter
  | operator | inline | unknown | other
  deriving DecidableEq, Repr

namespace TypeTag

def named : List TypeTag :=
  [intrinsic, reference, array, union, intersection, tuple, stringLiteral, parameter, operator,
    inline, unknown]

def name : TypeTag → String
  | intrinsic => "intrinsic"
  | reference => "reference"
  | array => "array"
  | union => "union"
  | intersection => "intersection"
  | tuple => "tuple"
  | stringLiteral => "stringLiteral"
  | parameter => "typeParameter"
  | operator => "typeOperator"
  | inline => "reflection"
  | unknown => "unknown"
  | other => "other"

def title : TypeTag → String
  | intrinsic => "struct variant TypeRef::Intrinsic"
  | reference => "struct variant TypeRef::Reference"
  | array => "struct variant TypeRef::Array"
  | union => "struct variant TypeRef::Union"
  | intersection => "struct variant TypeRef::Intersection"
  | tuple => "struct variant TypeRef::Tuple"
  | stringLiteral => "struct variant TypeRef::StringLiteral"
  | parameter => "struct variant TypeRef::TypeParameter"
  | operator => "struct variant TypeRef::TypeOperator"
  | inline => "struct variant TypeRef::Reflection"
  | unknown => "struct variant TypeRef::Unknown"
  | other => "unit variant TypeRef::Other"

def ofName (s : String) : TypeTag := (named.find? (·.name == s)).getD other

def ofNumber (n : Nat) : TypeTag := named.getD n other

/-- Reads a variant's name; in a kept value a number may stand for it. -/
def read (g : Regime) : Json → Except Fault TypeTag
  | .text t => do
      let s ← t.read
      return ofName s
  | .number n => do
      match g, ← n.value with
      | .kept, .integer i =>
          if 0 ≤ i then return ofNumber i.toNat
          else .error (.invalidType (.integer i) "variant identifier")
      | _, v => .error (.invalidType v.found "variant identifier")
  | j => j.mismatch "variant identifier"

end TypeTag

inductive TypeKey where
  | name | typeArguments | elementType | types | elements | value | operator | target
  | declaration
  deriving DecidableEq, Repr

namespace TypeKey

def label : TypeKey → String
  | name => "name"
  | typeArguments => "typeArguments"
  | elementType => "elementType"
  | types => "types"
  | elements => "elements"
  | value => "value"
  | operator => "operator"
  | target => "target"
  | declaration => "declaration"

abbrev Value : TypeKey → Type
  | name | value | operator => String
  | typeArguments | types | elements => List TypeExpr
  | elementType | target => TypeExpr
  | declaration => Reflection

end TypeKey

def TypeTag.keys : TypeTag → List TypeKey
  | intrinsic | parameter | unknown => [.name]
  | reference => [.name, .typeArguments]
  | array => [.elementType]
  | union | intersection => [.types]
  | tuple => [.elements]
  | stringLiteral => [.value]
  | operator => [.operator, .target]
  | inline => [.declaration]
  | other => []

def TypeTag.shape (t : TypeTag) : Shape TypeKey where
  title := t.title
  keys := t.keys
  name := TypeKey.label
  mayEndBefore k := k == .typeArguments || k == .elements
  field? s := t.keys.find? (·.label == s)

def TypeExpr.ofFields (t : TypeTag) (f : Fields TypeKey.Value) : Except Fault TypeExpr :=
  match t with
  | .intrinsic => (required "name" (f .name)).map .intrinsic
  | .reference => do
      let name ← required "name" (f .name)
      return .reference name ((f .typeArguments).getD [])
  | .array => (required "elementType" (f .elementType)).map .array
  | .union => (required "types" (f .types)).map .union
  | .intersection => (required "types" (f .types)).map .intersection
  | .tuple => .ok (.tuple ((f .elements).getD []))
  | .stringLiteral => (required "value" (f .value)).map .stringLiteral
  | .parameter => (required "name" (f .name)).map .parameter
  | .operator => do
      let name ← required "operator" (f .operator)
      let target ← required "target" (f .target)
      return .operator name target
  | .inline => (required "declaration" (f .declaration)).map .inline
  | .unknown => (required "name" (f .name)).map .unknown
  | .other => .ok .other

def TypeTag.readMembers (g : Regime) (n : Nat) :
    Option TypeTag → List Member → Except Fault (Option TypeTag)
  | tag, [] => .ok tag
  | tag, (key, j) :: ms => do
      let name ← key.read
      if name = "type" then
        match tag with
        | some _ => .error (.duplicateField "type")
        | none => do
            let t ← TypeTag.read g j
            TypeTag.readMembers g n (some t) ms
      else do
        j.check n
        TypeTag.readMembers g n tag ms

/-- The variant of a type and what its fields are to be read from, which is checked. -/
def TypeTag.split (g : Regime) (n : Nat) : Json → Except Fault (TypeTag × Json)
  | .list [] e => do
      e.check .decoding
      .error (.missingField "type")
  | .list (j :: js) e => do
      let tag ← TypeTag.read g j
      js.forM (Json.check n)
      e.check .decoding
      return (tag, .list js e)
  | .object members e => do
      let tag ← TypeTag.readMembers g n none members
      e.check .decoding
      let tag ← required "type" tag
      return (tag, .object members e)
  | j => j.mismatch "internally tagged enum TypeRef"

def tooDeep {α : Type} (expected : String) : Json → Except Fault α
  | .list _ _ | .object _ _ => .error (.malformed .tooDeep)
  | j => j.mismatch expected

inductive ReflectionKey where
  | name | kind | flags | comment | type | defaultValue | sources | signatures | parameters
  | children | typeParameters
  deriving DecidableEq, Repr

namespace ReflectionKey

def label : ReflectionKey → String
  | name => "name"
  | kind => "kind"
  | flags => "flags"
  | comment => "comment"
  | type => "type"
  | defaultValue => "defaultValue"
  | sources => "sources"
  | signatures => "signatures"
  | parameters => "parameters"
  | children => "children"
  | typeParameters => "typeParameter"

def all : List ReflectionKey :=
  [name, kind, flags, comment, type, defaultValue, sources, signatures, parameters, children,
    typeParameters]

abbrev Value : ReflectionKey → Type
  | name => String
  | kind => Kind
  | flags => Option Flags
  | comment => Option Comment
  | type => Option TypeExpr
  | defaultValue => Option String
  | sources => List Source
  | signatures | parameters | children | typeParameters => List Reflection

def isOption : ReflectionKey → Bool
  | flags | comment | type | defaultValue => true
  | _ => false

end ReflectionKey

def Reflection.shape : Shape ReflectionKey where
  title := "struct Reflection"
  keys := ReflectionKey.all
  name := ReflectionKey.label
  mayEndBefore k := !k.isOption
  field? s := ReflectionKey.all.find? (·.label == s)

def Reflection.ofFields (f : Fields ReflectionKey.Value) : Except Fault Reflection :=
  .ok {
    name := (f .name).getD ""
    kind := (f .kind).getD .project
    flags := optional (f .flags)
    comment := optional (f .comment)
    type := optional (f .type)
    defaultValue := optional (f .defaultValue)
    sources := (f .sources).getD []
    signatures := (f .signatures).getD []
    parameters := (f .parameters).getD []
    children := (f .children).getD []
    typeParameters := (f .typeParameters).getD [] }

def Kind.read (j : Json) : Except Fault Kind := (readWord j).map Kind.ofBits

mutual

def Reflection.read (g : Regime) : Nat → Json → Except Fault Reflection
  | 0 => tooDeep Reflection.shape.title
  | n + 1 =>
      readRecord g Reflection.shape
        (some fun
          | .name => readText
          | .kind => Kind.read
          | .flags => readOption (Flags.read g n)
          | .comment => readOption (Comment.read g n)
          | .type => readOption (TypeExpr.read g n)
          | .defaultValue => readOption readText
          | .sources => readList (below (Source.read g) n)
          | .signatures => Reflection.readAll g n
          | .parameters => Reflection.readAll g n
          | .children => Reflection.readAll g n
          | .typeParameters => Reflection.readAll g n)
        Reflection.ofFields

def Reflection.readAll (g : Regime) : Nat → Json → Except Fault (List Reflection)
  | 0 => readList none
  | n + 1 => readList (some (Reflection.read g n))

/-- Reads a type; its fields are read from the kept value. -/
def TypeExpr.read (g : Regime) : Nat → Json → Except Fault TypeExpr
  | 0 => tooDeep "internally tagged enum TypeRef"
  | n + 1 => fun j => do
      let (tag, body) ← TypeTag.split g n j
      if tag = .other then
        match body with
        | .list (x :: xs) _ => .error (.invalidLength (x :: xs).length "0 elements in sequence")
        | _ => return .other
      else
        readRecord .kept tag.shape
          (some fun
            | .name => readText
            | .typeArguments => TypeExpr.readAll n
            | .elementType => TypeExpr.read .kept n
            | .types => TypeExpr.readAll n
            | .elements => TypeExpr.readAll n
            | .value => readText
            | .operator => readText
            | .target => TypeExpr.read .kept n
            | .declaration => Reflection.read .kept n)
          (TypeExpr.ofFields tag) body

def TypeExpr.readAll : Nat → Json → Except Fault (List TypeExpr)
  | 0 => readList none
  | n + 1 => readList (some (TypeExpr.read .kept n))

end

def Reflection.ofText (s : String) : Except Fault Reflection :=
  (Json.Document.ofText s).decode (Reflection.read .direct Json.maxLevels)

end DocTree
