import DocTree.Json.Value
import DocTree.Reflection.Basic

/-!
# Writing a reflection graph as JSON

A reflection is an object whose keys are those of the format; a kind is its number
and what is absent has no member. A type is an object that names its variant under
the key `type`. The format leaves some of this open: a list without items may be
left out where it is not asked for, the name of a tag has two keys, and a type of a
shape without a name may be called anything that names no other variant.
-/
namespace DocTree

open Json (Value)

/-- What the format leaves to a writer. -/
structure Style where
  otherName : String
  otherName_free : otherName ∉ ["intrinsic", "reference", "array", "union", "intersection",
    "tuple", "stringLiteral", "typeParameter", "typeOperator", "reflection", "unknown"]
  /-- Whether the name of a tag has the longer one of its two keys. -/
  longTagKey : Bool
  omitsEmpty : Bool

def Style.list (st : Style) (items : List Value) : Option Value :=
  if st.omitsEmpty && items.isEmpty then none else some (.list items)

def presentMembers (ms : List (String × Option Value)) : List (String × Value) :=
  ms.filterMap fun m => m.2.map (m.1, ·)

def Flags.encode (f : Flags) : Value :=
  .object (presentMembers [
    ("isExported", f.isExported.map .boolean),
    ("isExternal", f.isExternal.map .boolean),
    ("isOptional", f.isOptional.map .boolean),
    ("isPrivate", f.isPrivate.map .boolean),
    ("isProtected", f.isProtected.map .boolean),
    ("isPublic", f.isPublic.map .boolean),
    ("isRest", f.isRest.map .boolean),
    ("isStatic", f.isStatic.map .boolean)])

def Tag.encode (st : Style) (t : Tag) : Value :=
  .object [(if st.longTagKey then "tagName" else "tag", .text t.name), ("text", .text t.text)]

def Comment.encode (st : Style) (c : Comment) : Value :=
  .object (presentMembers [
    ("shortText", some (.text c.shortText)),
    ("text", some (.text c.text)),
    ("tags", st.list (c.tags.map (Tag.encode st)))])

def Source.encode (s : Source) : Value :=
  .object (presentMembers [
    ("fileName", some (.text s.fileName)),
    ("fullFileName", s.fullFileName.map .text),
    ("line", some (.number s.line.toNat)),
    ("character", some (.number s.character.toNat))])

mutual

def TypeExpr.encode (st : Style) : TypeExpr → Value
  | .intrinsic name => .object [("type", .text "intrinsic"), ("name", .text name)]
  | .reference name arguments =>
      .object (presentMembers [
        ("type", some (.text "reference")),
        ("name", some (.text name)),
        ("typeArguments", st.list (TypeExpr.encodeAll st arguments))])
  | .array element => .object [("type", .text "array"), ("elementType", element.encode st)]
  | .union members =>
      .object [("type", .text "union"), ("types", .list (TypeExpr.encodeAll st members))]
  | .intersection members =>
      .object [("type", .text "intersection"), ("types", .list (TypeExpr.encodeAll st members))]
  | .tuple elements =>
      .object (presentMembers [
        ("type", some (.text "tuple")),
        ("elements", st.list (TypeExpr.encodeAll st elements))])
  | .stringLiteral value => .object [("type", .text "stringLiteral"), ("value", .text value)]
  | .parameter name => .object [("type", .text "typeParameter"), ("name", .text name)]
  | .operator name target =>
      .object [("type", .text "typeOperator"), ("operator", .text name),
        ("target", target.encode st)]
  | .inline declaration =>
      .object [("type", .text "reflection"), ("declaration", declaration.encode st)]
  | .unknown name => .object [("type", .text "unknown"), ("name", .text name)]
  | .other => .object [("type", .text st.otherName)]

def TypeExpr.encodeAll (st : Style) : List TypeExpr → List Value
  | [] => []
  | t :: ts => t.encode st :: TypeExpr.encodeAll st ts

def TypeExpr.encodeSome (st : Style) : Option TypeExpr → Option Value
  | none => none
  | some t => some (t.encode st)

def Reflection.encode (st : Style) : Reflection → Value
  | ⟨name, kind, flags, comment, type, defaultValue, sources, signatures, parameters, children,
      typeParameters⟩ =>
      .object (presentMembers [
        ("name", some (.text name)),
        ("kind", some (.number kind.bits.toNat)),
        ("flags", flags.map Flags.encode),
        ("comment", comment.map (Comment.encode st)),
        ("type", TypeExpr.encodeSome st type),
        ("defaultValue", defaultValue.map .text),
        ("sources", st.list (sources.map Source.encode)),
        ("signatures", st.list (Reflection.encodeAll st signatures)),
        ("parameters", st.list (Reflection.encodeAll st parameters)),
        ("children", st.list (Reflection.encodeAll st children)),
        ("typeParameter", st.list (Reflection.encodeAll st typeParameters))])

def Reflection.encodeAll (st : Style) : List Reflection → List Value
  | [] => []
  | r :: rs => r.encode st :: Reflection.encodeAll st rs

end

theorem TypeExpr.encodeAll_eq (st : Style) (ts : List TypeExpr) :
    encodeAll st ts = ts.map (encode st) := by
  induction ts with
  | nil => rfl
  | cons t ts ih => rw [encodeAll, ih, List.map_cons]

theorem TypeExpr.encodeSome_eq (st : Style) (t : Option TypeExpr) :
    encodeSome st t = t.map (encode st) := by
  cases t <;> rfl

theorem Reflection.encodeAll_eq (st : Style) (rs : List Reflection) :
    encodeAll st rs = rs.map (encode st) := by
  induction rs with
  | nil => rfl
  | cons r rs ih => rw [encodeAll, ih, List.map_cons]

mutual

def TypeExpr.kinds : TypeExpr → List Kind
  | .reference _ ts | .union ts | .intersection ts | .tuple ts => TypeExpr.kindsOfAll ts
  | .array t | .operator _ t => t.kinds
  | .inline declaration => declaration.kinds
  | .intrinsic _ | .stringLiteral _ | .parameter _ | .unknown _ | .other => []

def TypeExpr.kindsOfAll : List TypeExpr → List Kind
  | [] => []
  | t :: ts => t.kinds ++ TypeExpr.kindsOfAll ts

def TypeExpr.kindsOfSome : Option TypeExpr → List Kind
  | none => []
  | some t => t.kinds

def Reflection.kinds : Reflection → List Kind
  | ⟨_, kind, _, _, type, _, _, signatures, parameters, children, typeParameters⟩ =>
      kind :: (TypeExpr.kindsOfSome type ++ Reflection.kindsOfAll signatures ++
        Reflection.kindsOfAll parameters ++ Reflection.kindsOfAll children ++
        Reflection.kindsOfAll typeParameters)

def Reflection.kindsOfAll : List Reflection → List Kind
  | [] => []
  | r :: rs => r.kinds ++ Reflection.kindsOfAll rs

end

theorem TypeExpr.mem_kindsOfAll {t : TypeExpr} {ts : List TypeExpr} (ht : t ∈ ts) {k : Kind}
    (hk : k ∈ t.kinds) : k ∈ kindsOfAll ts := by
  induction ts with
  | nil => exact absurd ht List.not_mem_nil
  | cons u ts ih =>
    rw [kindsOfAll, List.mem_append]
    rcases List.mem_cons.1 ht with rfl | ht
    · exact .inl hk
    · exact .inr (ih ht)

theorem Reflection.mem_kindsOfAll {r : Reflection} {rs : List Reflection} (hr : r ∈ rs) {k : Kind}
    (hk : k ∈ r.kinds) : k ∈ kindsOfAll rs := by
  induction rs with
  | nil => exact absurd hr List.not_mem_nil
  | cons s rs ih =>
    rw [kindsOfAll, List.mem_append]
    rcases List.mem_cons.1 hr with rfl | hr
    · exact .inl hk
    · exact .inr (ih hr)

namespace Reflection

variable {r s : Reflection} {k : Kind}

theorem kind_mem_kinds (r : Reflection) : r.kind ∈ r.kinds := by
  cases r
  exact List.mem_cons_self

theorem mem_kinds_of_type {t : TypeExpr} (ht : r.type = some t) (hk : k ∈ t.kinds) :
    k ∈ r.kinds := by
  cases r
  subst ht
  simp [kinds, TypeExpr.kindsOfSome, hk]

theorem mem_kinds_of_signatures (hs : s ∈ r.signatures) (hk : k ∈ s.kinds) : k ∈ r.kinds := by
  cases r
  simp [kinds, mem_kindsOfAll hs hk]

theorem mem_kinds_of_parameters (hs : s ∈ r.parameters) (hk : k ∈ s.kinds) : k ∈ r.kinds := by
  cases r
  simp [kinds, mem_kindsOfAll hs hk]

theorem mem_kinds_of_children (hs : s ∈ r.children) (hk : k ∈ s.kinds) : k ∈ r.kinds := by
  cases r
  simp [kinds, mem_kindsOfAll hs hk]

theorem mem_kinds_of_typeParameters (hs : s ∈ r.typeParameters) (hk : k ∈ s.kinds) :
    k ∈ r.kinds := by
  cases r
  simp [kinds, mem_kindsOfAll hs hk]

end Reflection

end DocTree
