import DocTree.Proofs.Entry.SignatureText
import DocTree.Proofs.Json.Layouts
import Mathlib.Data.List.Forall2

/-!
# Documentation keeps its entries

To a reader of JSON an object is what it has under each key, in whatever order its members stand.
The members of an entry are those of its header and its own, and no two of them have one key. So
what is absent can be told from what is empty or false, a reason from a mere mark, and the value
that documentation says leaves no choice for its entries.
-/
namespace DocTree

open Json (Value)

namespace Json.Value

inductive DistinctKeys : Value → Prop
  | boolean (b : Bool) : DistinctKeys (.boolean b)
  | number (n : Nat) : DistinctKeys (.number n)
  | text (s : String) : DistinctKeys (.text s)
  | list {vs : List Value} : (∀ v ∈ vs, DistinctKeys v) → DistinctKeys (.list vs)
  | object {ms : List (String × Value)} : (ms.map Prod.fst).Nodup →
      (∀ m ∈ ms, DistinctKeys m.2) → DistinctKeys (.object ms)

/-- Two values are the same when their objects have the same values under the same keys. -/
inductive Same : Value → Value → Prop
  | boolean (b : Bool) : Same (.boolean b) (.boolean b)
  | number (n : Nat) : Same (.number n) (.number n)
  | text (s : String) : Same (.text s) (.text s)
  | list {vs ws : List Value} : List.Forall₂ Same vs ws → Same (.list vs) (.list ws)
  | object {ms ns : List (String × Value)} :
      (∀ key, List.Forall₂ Same ((Value.object ms).under key) ((Value.object ns).under key)) →
      Same (.object ms) (.object ns)

theorem Same.under {v w : Value} (h : v.Same w) (key : String) :
    List.Forall₂ Same (v.under key) (w.under key) := by
  cases h with
  | object h => exact h key
  | _ => exact .nil

theorem Same.items {vs ws : List Value} (h : (Value.list vs).Same (.list ws)) :
    List.Forall₂ Same vs ws := by
  cases h with
  | list h => exact h

theorem mem_of_mem_under {key : String} {ms : List (String × Value)} {v : Value}
    (h : v ∈ (Value.object ms).under key) : (key, v) ∈ ms := by
  obtain ⟨⟨k, w⟩, hfound, rfl⟩ := List.mem_map.1 h
  obtain ⟨hm, hkey⟩ := List.mem_filter.1 hfound
  obtain rfl : k = key := beq_iff_eq.1 hkey
  exact hm

theorem Same.refl (v : Value) : v.Same v := by
  cases v with
  | boolean b => exact .boolean b
  | number n => exact .number n
  | text s => exact .text s
  | list vs =>
    refine .list (List.forall₂_same.2 fun v hv => ?_)
    have := List.sizeOf_lt_of_mem hv
    exact Same.refl v
  | object ms =>
    refine .object fun key => List.forall₂_same.2 fun v hv => ?_
    have := List.sizeOf_lt_of_mem (mem_of_mem_under hv)
    exact Same.refl v
termination_by sizeOf v
decreasing_by
  · simp only [Value.list.sizeOf_spec]
    omega
  · simp only [Value.object.sizeOf_spec, Prod.mk.sizeOf_spec] at *
    omega

def Kept {α : Type} (encode : α → Value) : Prop := ∀ a b, (encode a).Same (encode b) → a = b

namespace Kept

variable {α : Type} {encode : α → Value}

theorem text : Kept Value.text := by
  intro a b h
  cases h
  rfl

theorem boolean : Kept Value.boolean := by
  intro a b h
  cases h
  rfl

theorem one (h : Kept encode) {a b : α} (same : List.Forall₂ Same [encode a] [encode b]) :
    a = b := h a b (List.forall₂_cons.1 same).1

theorem items (h : Kept encode) {as bs : List α}
    (same : List.Forall₂ Same (as.map encode) (bs.map encode)) : as = bs := by
  rw [List.forall₂_map_left_iff, List.forall₂_map_right_iff] at same
  exact List.forall₂_eq_eq_eq ▸ same.imp h

theorem list (h : Kept encode) : Kept fun as : List α => Value.list (as.map encode) :=
  fun _ _ same => h.items same.items

theorem option (h : Kept encode) {a b : Option α}
    (same : List.Forall₂ Same (a.map encode).toList (b.map encode).toList) : a = b := by
  cases a with
  | none =>
    cases b with
    | none => rfl
    | some b => cases same
  | some a =>
    cases b with
    | none => cases same
    | some b =>
      cases same with
      | cons same _ => rw [h a b same]

end Kept

theorem DistinctKeys.listed {α : Type} {encode : α → Value} (h : ∀ a, (encode a).DistinctKeys)
    (as : List α) : (Value.list (as.map encode)).DistinctKeys :=
  .list (List.forall_mem_map.2 fun a _ => h a)

structure HasKeys (keys : List String) (ms : List (String × Value)) : Prop where
  keys : (ms.map Prod.fst).Sublist keys
  values : ∀ m ∈ ms, m.2.DistinctKeys

namespace HasKeys

variable {keys keys' : List String} {ms ns : List (String × Value)}

theorem nil : HasKeys [] [] := ⟨.refl _, fun _ hm => absurd hm List.not_mem_nil⟩

theorem cons {key : String} {v : Value} (hv : v.DistinctKeys) (h : HasKeys keys ms) :
    HasKeys (key :: keys) ((key, v) :: ms) :=
  ⟨h.keys.cons_cons key, List.forall_mem_cons.2 ⟨hv, h.values⟩⟩

theorem append (h : HasKeys keys ms) (h' : HasKeys keys' ns) :
    HasKeys (keys ++ keys') (ms ++ ns) := by
  refine ⟨?_, List.forall_mem_append.2 ⟨h.values, h'.values⟩⟩
  rw [List.map_append]
  exact h.keys.append h'.keys

theorem absentOr {α : Type} (key : String) {encode : α → Value}
    (h : ∀ a, (encode a).DistinctKeys) (o : Option α) :
    HasKeys [key] (DocTree.absentOr key encode o) := by
  cases o with
  | none => exact ⟨List.nil_sublist _, fun _ hm => absurd hm List.not_mem_nil⟩
  | some a => exact nil.cons (h a)

theorem distinctKeys (h : HasKeys keys ms) (distinct : keys.Nodup) :
    (Value.object ms).DistinctKeys :=
  .object (h.keys.nodup distinct) h.values

end HasKeys

end Json.Value

open Json.Value (DistinctKeys HasKeys Kept Same under_append under_absentOr under_absent)

theorem Deprecation.kept : Kept Deprecation.encode := by
  intro a b same
  cases a <;> cases b <;> cases same <;> rfl

theorem Deprecation.distinctKeys (d : Deprecation) : d.encode.DistinctKeys := by
  cases d with
  | bare => exact .boolean true
  | reason text => exact .text text

namespace Entry

theorem Marks.under_deprecation (m : Marks) :
    m.encode.under "isDeprecated" = (m.deprecation.map Deprecation.encode).toList := by
  simp only [Marks.encode, Flags.encodeMembers, under_append, under_absentOr]
  simp

theorem Marks.kept : Kept Marks.encode := by
  intro m n same
  have deprecation_eq : m.deprecation = n.deprecation := by
    have under := same.under "isDeprecated"
    rw [under_deprecation, under_deprecation] at under
    exact Deprecation.kept.option under
  have flag_eq : ∀ p ∈ flagsByKey, p.2 m.flags = p.2 n.flags := by
    rintro ⟨key, flag⟩ hflag
    have under := same.under key
    rw [under_flag hflag, under_flag hflag] at under
    exact Kept.boolean.option under
  obtain ⟨deprecation, flags⟩ := m
  obtain ⟨deprecation', flags'⟩ := n
  obtain rfl : deprecation = deprecation' := deprecation_eq
  rw [Marks.mk.injEq, Flags.mk.injEq]
  simpa [flagsByKey] using flag_eq

theorem Marks.distinctKeys (m : Marks) : m.encode.DistinctKeys := by
  have flag (key : String) (b : Option Bool) : HasKeys [key] (absentOr key .boolean b) :=
    .absentOr key DistinctKeys.boolean b
  have deprecated : HasKeys ["isDeprecated"] (absentOr "isDeprecated" Deprecation.encode _) :=
    .absentOr "isDeprecated" Deprecation.distinctKeys m.deprecation
  refine (deprecated.append ((((((((flag "isExported" _).append (flag "isExternal" _)).append
    (flag "isOptional" _)).append (flag "isPrivate" _)).append (flag "isProtected" _)).append
    (flag "isPublic" _)).append (flag "isRest" _)).append (flag "isStatic" _))).distinctKeys ?_
  decide

section members

variable {kind kind' : String} {h h' : Header} {own own' : List (String × Value)}

theorem Header.hasKeys (kind : String) (h : Header) :
    HasKeys headerKeys (h.encodeMembers kind) := by
  have named : HasKeys ["kind", "name"] [("kind", .text kind), ("name", .text h.name)] :=
    .cons (.text kind) (.cons (.text h.name) .nil)
  exact (((HasKeys.absentOr "documentation" .text h.documentation).append
    (.absentOr "fileName" .text h.fileName)).append
    (.absentOr "flags" Marks.distinctKeys h.marks)).append named

theorem under_header {key : String} (hkey : key ∈ headerKeys)
    (hown : ∀ m ∈ own, m.1 ∉ headerKeys) :
    (Value.object (h.encodeMembers kind ++ own)).under key =
      (Value.object (h.encodeMembers kind)).under key := by
  rw [under_append, under_absent fun m hm heq => hown m hm (heq ▸ hkey), List.append_nil]

theorem under_own {key : String} (hkey : key ∉ headerKeys) :
    (Value.object (h.encodeMembers kind ++ own)).under key = (Value.object own).under key := by
  rw [under_append, Header.under_other hkey, List.nil_append]

theorem Header.under_documentation (kind : String) (h : Header) :
    (Value.object (h.encodeMembers kind)).under "documentation" =
      (h.documentation.map Value.text).toList := by
  simp only [encodeMembers, under_append, under_absentOr]
  simp [Value.under]

theorem Header.under_fileName (kind : String) (h : Header) :
    (Value.object (h.encodeMembers kind)).under "fileName" =
      (h.fileName.map Value.text).toList := by
  simp only [encodeMembers, under_append, under_absentOr]
  simp [Value.under]

theorem header_of_same (hown : ∀ m ∈ own, m.1 ∉ headerKeys) (hown' : ∀ m ∈ own', m.1 ∉ headerKeys)
    (same : (Value.object (h.encodeMembers kind ++ own)).Same
      (.object (h'.encodeMembers kind' ++ own'))) : kind = kind' ∧ h = h' := by
  have under (key : String) (hkey : key ∈ headerKeys) :
      List.Forall₂ Same ((Value.object (h.encodeMembers kind)).under key)
        ((Value.object (h'.encodeMembers kind')).under key) := by
    have under := same.under key
    rwa [under_header hkey hown, under_header hkey hown'] at under
  have documentation_eq := under "documentation" (by decide)
  have fileName_eq := under "fileName" (by decide)
  have marks_eq := under "flags" (by decide)
  have kind_eq := under "kind" (by decide)
  have name_eq := under "name" (by decide)
  rw [Header.under_documentation, Header.under_documentation] at documentation_eq
  rw [Header.under_fileName, Header.under_fileName] at fileName_eq
  rw [Header.under_flags, Header.under_flags] at marks_eq
  rw [Header.under_kind, Header.under_kind] at kind_eq
  rw [Header.under_name, Header.under_name] at name_eq
  obtain ⟨documentation, fileName, marks, name⟩ := h
  obtain ⟨documentation', fileName', marks', name'⟩ := h'
  rw [Header.mk.injEq]
  exact ⟨Kept.text.one kind_eq, Kept.text.option documentation_eq, Kept.text.option fileName_eq,
    Marks.kept.option marks_eq, Kept.text.one name_eq⟩

theorem distinctKeys_entry {keys : List String} (kind : String) (h : Header)
    (hown : HasKeys keys own) (distinct : (headerKeys ++ keys).Nodup) :
    (Value.object (h.encodeMembers kind ++ own)).DistinctKeys :=
  ((h.hasKeys kind).append hown).distinctKeys distinct

end members

section typed

variable {kind : String} {h h' : Header} {d d' : Option String} {t t' : String}

theorem typed_hasKeys (d : Option String) (t : String) :
    HasKeys ["defaultValue", "type"] (absentOr "defaultValue" .text d ++ [("type", .text t)]) :=
  (HasKeys.absentOr "defaultValue" .text d).append (.cons (.text t) .nil)

theorem typed_of_same
    (same : (Value.object (h.encodeMembers kind ++ absentOr "defaultValue" .text d ++
        [("type", .text t)])).Same
      (.object (h'.encodeMembers kind ++ absentOr "defaultValue" .text d' ++
        [("type", .text t')]))) : h = h' ∧ d = d' ∧ t = t' := by
  rw [List.append_assoc, List.append_assoc] at same
  have apart (d : Option String) (t : String) :
      ∀ m ∈ absentOr "defaultValue" .text d ++ [("type", Value.text t)], m.1 ∉ headerKeys := by
    intro m hm
    have := (typed_hasKeys d t).keys.subset (List.mem_map_of_mem hm)
    simp only [List.mem_cons, List.not_mem_nil, or_false] at this
    rcases this with hkey | hkey <;> rw [hkey] <;> decide
  have default_eq := same.under "defaultValue"
  have type_eq := same.under "type"
  rw [under_own (by decide), under_own (by decide), under_append, under_append, under_absentOr,
    under_absentOr] at default_eq type_eq
  refine ⟨(header_of_same (apart d t) (apart d' t') same).2, Kept.text.option ?_, Kept.text.one ?_⟩
  · simpa [Value.under] using default_eq
  · simpa [Value.under] using type_eq

end typed

theorem Parameter.kept : Kept Parameter.encode := by
  rintro ⟨h, d, t⟩ ⟨h', d', t'⟩ same
  obtain ⟨rfl, rfl, rfl⟩ := typed_of_same same
  rfl

theorem Property.kept : Kept Property.encode := by
  rintro ⟨h, d, t⟩ ⟨h', d', t'⟩ same
  obtain ⟨rfl, rfl, rfl⟩ := typed_of_same same
  rfl

theorem Parameter.distinctKeys (p : Parameter) : p.encode.DistinctKeys := by
  rw [encode, List.append_assoc]
  exact distinctKeys_entry _ p.header (typed_hasKeys _ _) (by decide)

theorem Property.distinctKeys (p : Property) : p.encode.DistinctKeys := by
  rw [encode, List.append_assoc]
  exact distinctKeys_entry _ p.header (typed_hasKeys _ _) (by decide)

theorem Signature.kept : Kept Signature.encode := by
  intro g g' same
  have header_eq := (header_of_same (by simp [headerKeys]) (by simp [headerKeys]) same).2
  have parameters_eq := same.under "parameters"
  have returnType_eq := same.under "returnType"
  have type_eq := same.under "type"
  rw [under_parameters, under_parameters] at parameters_eq
  rw [under_returnType, under_returnType] at returnType_eq
  rw [under_type, under_type] at type_eq
  obtain ⟨h, ps, r, t⟩ := g
  rw [Signature.mk.injEq]
  exact ⟨header_eq, Parameter.kept.list.one parameters_eq, Kept.text.one returnType_eq,
    Kept.text.one type_eq⟩

theorem Signature.distinctKeys (g : Signature) : g.encode.DistinctKeys := by
  refine distinctKeys_entry "Signature" g.header ?_
    (by decide : (headerKeys ++ ["parameters", "returnType", "type"]).Nodup)
  exact .cons (.listed Parameter.distinctKeys _) (.cons (.text _) (.cons (.text _) .nil))

theorem Method.under_signatures (m : Method) :
    m.encode.under "signatures" = [.list (m.signatures.map Signature.encode)] := by
  rw [encode, under_own (by decide)]
  simp [Value.under]

theorem Method.kept : Kept Method.encode := by
  intro m m' same
  have header_eq := (header_of_same (by simp [headerKeys]) (by simp [headerKeys]) same).2
  have signatures_eq := same.under "signatures"
  rw [under_signatures, under_signatures] at signatures_eq
  obtain ⟨h, gs⟩ := m
  rw [Method.mk.injEq]
  exact ⟨header_eq, Signature.kept.list.one signatures_eq⟩

theorem Method.distinctKeys (m : Method) : m.encode.DistinctKeys := by
  refine distinctKeys_entry "Method" m.header ?_ (by decide : (headerKeys ++ ["signatures"]).Nodup)
  exact .cons (.listed Signature.distinctKeys _) .nil

theorem ContainerKind.name_injective {k k' : ContainerKind} (h : k.name = k'.name) : k = k' := by
  cases k <;> cases k' <;> first | rfl | exact absurd h (by decide)

theorem Container.under_methods (c : Container) :
    c.encode.under "methods" = [.list (c.methods.map Method.encode)] := by
  rw [encode, under_own (by decide)]
  simp [Value.under]

theorem Container.under_properties (c : Container) :
    c.encode.under "properties" = [.list (c.properties.map Property.encode)] := by
  rw [encode, under_own (by decide)]
  simp [Value.under]

theorem Container.kept : Kept Container.encode := by
  intro c c' same
  obtain ⟨kind_eq, header_eq⟩ :=
    header_of_same (by simp [headerKeys]) (by simp [headerKeys]) same
  have methods_eq := same.under "methods"
  have properties_eq := same.under "properties"
  rw [under_methods, under_methods] at methods_eq
  rw [under_properties, under_properties] at properties_eq
  obtain ⟨k, h, ms, ps⟩ := c
  rw [Container.mk.injEq]
  exact ⟨ContainerKind.name_injective kind_eq, header_eq, Method.kept.list.one methods_eq,
    Property.kept.list.one properties_eq⟩

theorem Container.distinctKeys (c : Container) : c.encode.DistinctKeys := by
  refine distinctKeys_entry c.kind.name c.header ?_
    (by decide : (headerKeys ++ ["methods", "properties"]).Nodup)
  exact .cons (.listed Method.distinctKeys _) (.cons (.listed Property.distinctKeys _) .nil)

theorem encodeAll_kept : Kept encodeAll := Container.kept.list

theorem says_fileText (l : Json.Layout) (cs : List Container) :
    Json.Says (fileText l cs) (encodeAll cs) := Json.says_line l _

theorem fileText_compact (cs : List Container) :
    ∃ line, (fileText .compact cs).toList = line ++ ['\n'] ∧ '\n' ∉ line := by
  refine ⟨(encodeAll cs).chars .compact 0, ?_, Json.lineFeed_notMem_chars _ 0⟩
  rw [fileText, String.toList_append, Value.write, String.toList_ofList]
  rfl

/-- A documentation file says the same in both layouts, in the compact one on a single line, and
no object in it has a key twice. What it says, with the members of objects in any order, is said of
no other entries, so other entries have other texts in either layout. -/
theorem documentation_lossless (cs : List Container) :
    (∀ l, Json.Says (fileText l cs) (encodeAll cs)) ∧
      (∃ line, (fileText .compact cs).toList = line ++ ['\n'] ∧ '\n' ∉ line) ∧
      (encodeAll cs).DistinctKeys ∧
      (∀ ds, (encodeAll cs).Same (encodeAll ds) → cs = ds) ∧
      ∀ l l' ds, fileText l cs = fileText l' ds → cs = ds := by
  refine ⟨fun l => says_fileText l cs, fileText_compact cs, .listed Container.distinctKeys cs,
    encodeAll_kept cs, fun l l' ds text_eq => ?_⟩
  have value_eq : encodeAll cs = encodeAll ds :=
    (says_fileText l cs).unique (text_eq ▸ says_fileText l' ds)
  exact encodeAll_kept cs ds (value_eq ▸ .refl _)

end Entry

end DocTree
