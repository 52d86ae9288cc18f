/-!
# Reflection graphs

A reflection is a declaration of a documented program: a module, a class, a
member, a signature, a parameter. It holds its comment, its type and the
reflections inside it. A type may hold an inline declaration, so the two are
defined together.
-/
namespace DocTree

/-- What kind of declaration a reflection is; kinds that have no name here keep their number. -/
inductive Kind where
  | project
  | externalModule
  | module
  | enum
  | function
  | classType
  | interface
  | constructor
  | property
  | method
  | callSignature
  | parameter
  | typeLiteral
  | typeParameter
  | other (bits : UInt32)
  deriving DecidableEq, Repr, Inhabited

namespace Kind

def named : List (UInt32 × Kind) :=
  [(0, project), (1, externalModule), (2, module), (4, enum), (64, function), (128, Kind.classType),
    (256, interface), (512, constructor), (1024, property), (2048, method), (4096, callSignature),
    (32768, parameter), (65536, typeLiteral), (131072, typeParameter)]

def ofBits (bits : UInt32) : Kind := (named.lookup bits).getD (other bits)

def bits : Kind → UInt32
  | project => 0
  | externalModule => 1
  | module => 2
  | enum => 4
  | function => 64
  | .classType => 128
  | interface => 256
  | constructor => 512
  | property => 1024
  | method => 2048
  | callSignature => 4096
  | parameter => 32768
  | typeLiteral => 65536
  | typeParameter => 131072
  | other b => b

def Canonical (k : Kind) : Prop := ofBits k.bits = k

instance (k : Kind) : Decidable k.Canonical := inferInstanceAs (Decidable (_ = _))

theorem bits_ofBits (b : UInt32) : (ofBits b).bits = b := by
  unfold ofBits named
  simp only [List.lookup_cons, List.lookup_nil]
  repeat' split
  all_goals simp_all [bits]

theorem ofBits_canonical (b : UInt32) : (ofBits b).Canonical := by
  unfold Canonical
  rw [bits_ofBits]

end Kind

structure Flags where
  isExported : Option Bool
  isExternal : Option Bool
  isOptional : Option Bool
  isPrivate : Option Bool
  isProtected : Option Bool
  isPublic : Option Bool
  isRest : Option Bool
  isStatic : Option Bool
  deriving DecidableEq, Repr, Inhabited

structure Tag where
  name : String
  text : String
  deriving DecidableEq, Repr, Inhabited

structure Comment where
  shortText : String
  text : String
  tags : List Tag
  deriving DecidableEq, Repr, Inhabited

def Comment.tag? (c : Comment) (name : String) : Option Tag := c.tags.find? (·.name == name)

structure Source where
  fileName : String
  fullFileName : Option String
  line : UInt32
  character : UInt32
  deriving DecidableEq, Repr, Inhabited

mutual

inductive TypeExpr where
  | intrinsic (name : String)
  | reference (name : String) (arguments : List TypeExpr)
  | array (element : TypeExpr)
  | union (members : List TypeExpr)
  | intersection (members : List TypeExpr)
  | tuple (elements : List TypeExpr)
  | stringLiteral (value : String)
  | parameter (name : String)
  | operator (name : String) (target : TypeExpr)
  | inline (declaration : Reflection)
  | unknown (name : String)
  | other
  deriving Repr

structure Reflection where
  name : String
  kind : Kind
  flags : Option Flags
  comment : Option Comment
  /-- The type of a property or a parameter, the return type of a signature. -/
  type : Option TypeExpr
  defaultValue : Option String
  sources : List Source
  signatures : List Reflection
  parameters : List Reflection
  children : List Reflection
  typeParameters : List Reflection
  deriving Repr

end

-- Equality is not derived for types that are nested in each other.
mutual

def TypeExpr.same : TypeExpr → TypeExpr → Bool
  | .intrinsic a, .intrinsic b => a == b
  | .reference a xs, .reference b ys => a == b && sameTypes xs ys
  | .array a, .array b => a.same b
  | .union xs, .union ys => sameTypes xs ys
  | .intersection xs, .intersection ys => sameTypes xs ys
  | .tuple xs, .tuple ys => sameTypes xs ys
  | .stringLiteral a, .stringLiteral b => a == b
  | .parameter a, .parameter b => a == b
  | .operator a x, .operator b y => a == b && x.same y
  | .inline r, .inline s => r.same s
  | .unknown a, .unknown b => a == b
  | .other, .other => true
  | _, _ => false

def sameTypes : List TypeExpr → List TypeExpr → Bool
  | [], [] => true
  | x :: xs, y :: ys => x.same y && sameTypes xs ys
  | _, _ => false

def sameType? : Option TypeExpr → Option TypeExpr → Bool
  | none, none => true
  | some x, some y => x.same y
  | _, _ => false

def Reflection.same : Reflection → Reflection → Bool
  | ⟨name, kind, flags, comment, type, default, sources, signatures, parameters, children, types⟩,
    ⟨name', kind', flags', comment', type', default', sources', signatures', parameters', children',
      types'⟩ =>
    name == name' && kind == kind' && flags == flags' && comment == comment' &&
      sameType? type type' && default == default' && sources == sources' &&
      sameReflections signatures signatures' && sameReflections parameters parameters' &&
      sameReflections children children' && sameReflections types types'

def sameReflections : List Reflection → List Reflection → Bool
  | [], [] => true
  | r :: rs, s :: ss => r.same s && sameReflections rs ss
  | _, _ => false

end

mutual

theorem TypeExpr.same_iff (x y : TypeExpr) : x.same y = true ↔ x = y := by
  cases x with
  | intrinsic | stringLiteral | parameter | unknown | other =>
    cases y <;> simp [TypeExpr.same]
  | reference _ xs | union xs | intersection xs | tuple xs =>
    cases y <;> simp [TypeExpr.same, sameTypes_iff xs]
  | array x | operator _ x => cases y <;> simp [TypeExpr.same, TypeExpr.same_iff x]
  | inline r => cases y <;> simp [TypeExpr.same, Reflection.same_iff r]

theorem sameTypes_iff (xs ys : List TypeExpr) : sameTypes xs ys = true ↔ xs = ys := by
  cases xs with
  | nil => cases ys <;> simp [sameTypes]
  | cons x xs => cases ys <;> simp [sameTypes, TypeExpr.same_iff x, sameTypes_iff xs]

theorem sameType?_iff (x y : Option TypeExpr) : sameType? x y = true ↔ x = y := by
  cases x with
  | none => cases y <;> simp [sameType?]
  | some x => cases y <;> simp [sameType?, TypeExpr.same_iff x]

theorem Reflection.same_iff (r s : Reflection) : r.same s = true ↔ r = s := by
  cases r with
  | mk name kind flags comment type default sources signatures parameters children types =>
    cases s
    simp [Reflection.same, sameType?_iff type, sameReflections_iff signatures,
      sameReflections_iff parameters, sameReflections_iff children, sameReflections_iff types,
      and_assoc]

theorem sameReflections_iff (rs ss : List Reflection) :
    sameReflections rs ss = true ↔ rs = ss := by
  cases rs with
  | nil => cases ss <;> simp [sameReflections]
  | cons r rs => cases ss <;> simp [sameReflections, Reflection.same_iff r, sameReflections_iff rs]

end

instance : DecidableEq TypeExpr := fun x y => decidable_of_iff _ (x.same_iff y)

instance : DecidableEq Reflection := fun r s => decidable_of_iff _ (r.same_iff s)

instance : Inhabited TypeExpr := ⟨.other⟩

namespace Reflection

def hasFlag (r : Reflection) (flag : Flags → Option Bool) : Bool :=
  (r.flags.bind flag).getD false

def isExported (r : Reflection) : Bool := r.hasFlag Flags.isExported

def isOptional (r : Reflection) : Bool := r.hasFlag Flags.isOptional

def isRest (r : Reflection) : Bool := r.hasFlag Flags.isRest

def childrenOfKind (k : Kind) (r : Reflection) : List Reflection :=
  r.children.filter (·.kind == k)

mutual

/-- The reflections reached through one or more steps into `children`, each before those below
it. -/
def descendants : Reflection → List Reflection
  | ⟨_, _, _, _, _, _, _, _, _, children, _⟩ => forest children

def forest : List Reflection → List Reflection
  | [] => []
  | r :: rs => r :: (descendants r ++ forest rs)

end

def descendantsOfKind (k : Kind) (r : Reflection) : List Reflection :=
  r.descendants.filter (·.kind == k)

end Reflection

end DocTree
