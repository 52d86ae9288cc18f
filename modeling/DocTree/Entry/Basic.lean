import DocTree.Reflection.Documentation

/-!
# Documentation entries

The documentation of a project is a list of containers, its interfaces and its
classes. A container holds methods and properties, a method its signatures and a
signature its parameters. Every entry starts with the same header.
-/
namespace DocTree.Entry

structure Marks where
  deprecation : Option Deprecation
  flags : Flags
  deriving DecidableEq, Repr

structure Header where
  documentation : Option String
  /-- The file of the declaration, relative to the working directory. -/
  fileName : Option String
  marks : Option Marks
  name : String
  deriving DecidableEq, Repr

structure Parameter where
  header : Header
  defaultValue : Option String
  type : String
  deriving DecidableEq, Repr

structure Property where
  header : Header
  defaultValue : Option String
  type : String
  deriving DecidableEq, Repr

structure Signature where
  header : Header
  parameters : List Parameter
  returnType : String
  type : String
  deriving DecidableEq, Repr

structure Method where
  header : Header
  signatures : List Signature
  deriving DecidableEq, Repr

inductive ContainerKind where
  | interface
  | classType
  deriving DecidableEq, Repr

structure Container where
  kind : ContainerKind
  header : Header
  methods : List Method
  properties : List Property
  deriving DecidableEq, Repr

end DocTree.Entry
