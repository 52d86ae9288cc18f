import DocTree.Proofs.Reflection.Parts

/-!
# Reading back a written reflection graph

What was written as a reflection is read as that reflection: every field, every
type and every reflection inside a type, in whichever style it was written. Levels
are counted down together by the writer's nesting and by the reader, so the
induction is on the levels that are left; at each level a reflection and a type are
records whose members need one level less.
-/
namespace DocTree

open Json (Value Fields Reads ReadsField Fault Regime membersOf reads_text reads_word reads_record
  readsField_map readsField_option readList readText readOption readRecord depth_le_of_member)

namespace TypeExpr

def tag : TypeExpr → TypeTag
  | .intrinsic _ => .intrinsic
  | .reference _ _ => .reference
  | .array _ => .array
  | .union _ => .union
  | .intersection _ => .intersection
  | .tuple _ => .tuple
  | .stringLiteral _ => .stringLiteral
  | .parameter _ => .parameter
  | .operator _ _ => .operator
  | .inline _ => .inline
  | .unknown _ => .unknown
  | .other => .other

def variantName (st : Style) (t : TypeExpr) : String :=
  if t.tag = .other then st.otherName else t.tag.name

def fields (st : Style) : TypeExpr → Fields TypeKey.Value
  | .intrinsic name, .name | .parameter name, .name | .unknown name, .name => some name
  | .reference name _, .name => some name
  | .reference _ arguments, .typeArguments => st.kept arguments
  | .array element, .elementType => some element
  | .union members, .types | .intersection members, .types => some members
  | .tuple elements, .elements => st.kept elements
  | .stringLiteral value, .value => some value
  | .operator name _, .operator => some name
  | .operator _ target, .target => some target
  | .inline declaration, .declaration => some declaration
  | _, _ => none

end TypeExpr

def TypeKey.encode (st : Style) : (k : TypeKey) → k.Value → Json.Value
  | .name, s | .value, s | .operator, s => .text s
  | .typeArguments, ts | .types, ts | .elements, ts => .list (ts.map (TypeExpr.encode st))
  | .elementType, t | .target, t => t.encode st
  | .declaration, r => r.encode st

def TypeKey.kinds : (k : TypeKey) → k.Value → List Kind
  | .name, _ | .value, _ | .operator, _ => []
  | .typeArguments, ts | .types, ts | .elements, ts => TypeExpr.kindsOfAll ts
  | .elementType, t | .target, t => t.kinds
  | .declaration, r => r.kinds

namespace TypeExpr

def value (st : Style) (t : TypeExpr) (k : TypeKey) : Option Value :=
  (t.fields st k).map (k.encode st)

theorem encode_eq (st : Style) (t : TypeExpr) : t.encode st =
    .object (("type", .text (t.variantName st)) ::
      membersOf TypeKey.label (t.value st) t.tag.keys) := by
  rw [← presentMembers_map]
  cases t with
  | reference name arguments =>
    rw [encode, encodeAll_eq, Style.list_map]
    rfl
  | tuple elements =>
    rw [encode, encodeAll_eq, Style.list_map]
    rfl
  | union members | intersection members =>
    rw [encode, encodeAll_eq]
    rfl
  | _ => rfl

theorem kinds_of_field {st : Style} {t : TypeExpr} {k : TypeKey} {a : k.Value}
    (h : t.fields st k = some a) {kind : Kind} (hkind : kind ∈ k.kinds a) : kind ∈ t.kinds := by
  -- The type has no such field, or the field is a text, one part, or a list of parts.
  cases t <;> cases k <;> first
    | exact absurd h.symm (Option.some_ne_none a)
    | exact absurd hkind List.not_mem_nil
    | (obtain rfl := Option.some.inj h; exact hkind)
    | (obtain rfl := Style.eq_of_kept h; exact hkind)

end TypeExpr

theorem TypeTag.ofName_variantName (st : Style) (t : TypeExpr) :
    TypeTag.ofName (t.variantName st) = t.tag := by
  cases t with
  | other =>
    have unnamed : TypeTag.named.find? (·.name == st.otherName) = none := by
      rw [List.find?_eq_none]
      intro tag htag hname
      apply st.otherName_free
      rw [← beq_iff_eq.1 hname]
      exact List.mem_map_of_mem (f := TypeTag.name) htag
    change (TypeTag.named.find? (·.name == st.otherName)).getD .other = .other
    rw [unnamed]
    rfl
  | _ => rfl

theorem TypeKey.label_ne_type (k : TypeKey) : k.label ≠ "type" := by
  cases k <;> decide

theorem TypeTag.field_label (t : TypeTag) {k : TypeKey} (hk : k ∈ t.keys) :
    t.shape.field? k.label = some k := by
  have all : ∀ l ∈ t.keys, t.shape.field? l.label = some l := by cases t <;> decide
  exact all k hk

theorem TypeTag.keys_nodup (t : TypeTag) : t.keys.Nodup := by
  cases t <;> decide

theorem TypeTag.field_type (t : TypeTag) : t.shape.field? "type" = none := by
  cases t <;> rfl

theorem TypeTag.readMembers_checked (g : Regime) {n : Nat} {tag : TypeTag}
    {ms : List (String × Value)}
    (h : ∀ key v, (key, v) ∈ ms → key ≠ "type" ∧ v.tree.check n = .ok ()) :
    TypeTag.readMembers g n (some tag) (Json.memberTrees ms) = .ok (some tag) := by
  induction ms with
  | nil => rfl
  | cons m ms ih =>
    obtain ⟨key, v⟩ := m
    obtain ⟨hkey, hv⟩ := h key v List.mem_cons_self
    rw [Json.memberTrees, TypeTag.readMembers, Json.read_ofText]
    simp only [bind, Except.bind, hkey, if_false, hv]
    exact ih fun key w hw => h key w (List.mem_cons_of_mem _ hw)

structure ReadsBack (st : Style) (n : Nat) : Prop where
  type : ∀ (g : Regime) (t : TypeExpr), (∀ k ∈ t.kinds, k.Canonical) →
    (t.encode st).depth ≤ n → Reads n (TypeExpr.read g n) (t.encode st) t
  reflection : ∀ (g : Regime) (r : Reflection), (∀ k ∈ r.kinds, k.Canonical) →
    (r.encode st).depth ≤ n → Reads n (Reflection.read g n) (r.encode st) r

def TypeExpr.readField (n : Nat) : (k : TypeKey) → Json → Except Fault k.Value
  | .name => readText
  | .typeArguments => TypeExpr.readAll n
  | .elementType => TypeExpr.read .kept n
  | .types => TypeExpr.readAll n
  | .elements => TypeExpr.readAll n
  | .value => readText
  | .operator => readText
  | .target => TypeExpr.read .kept n
  | .declaration => Reflection.read .kept n

theorem TypeExpr.readAll_eq (n : Nat) : readAll n = readList (below (read .kept) n) := by
  cases n <;> rfl

theorem TypeExpr.read_succ (g : Regime) (n : Nat) (j : Json) : TypeExpr.read g (n + 1) j = (do
    let (tag, body) ← TypeTag.split g n j
    if tag = .other then
      match body with
      | .list (x :: xs) _ => .error (.invalidLength (x :: xs).length "0 elements in sequence")
      | _ => return .other
    else readRecord .kept tag.shape (some (readField n)) (ofFields tag) body) := by
  rw [TypeExpr.read]
  rfl

variable {st : Style} {n : Nat}

theorem TypeKey.reads (h : ∀ m ≤ n, ReadsBack st m) {k : TypeKey} {a : k.Value}
    (hkinds : ∀ kind ∈ k.kinds a, kind.Canonical) (hdepth : (k.encode st a).depth ≤ n) :
    Reads n (TypeExpr.readField n k) (k.encode st a) a := by
  cases k with
  | name | value | operator => exact reads_text n a
  | typeArguments | types | elements =>
    rw [TypeExpr.readField, TypeExpr.readAll_eq]
    apply reads_below hdepth
    intro m hm t ht hd
    exact (h m (Nat.le_of_lt hm)).type .kept t
      (fun kind hk => hkinds kind (TypeExpr.mem_kindsOfAll ht hk)) hd
  | elementType | target => exact (h n (Nat.le_refl n)).type .kept a hkinds hdepth
  | declaration => exact (h n (Nat.le_refl n)).reflection .kept a hkinds hdepth

theorem TypeExpr.split_encode (g : Regime) (t : TypeExpr) {ms : List (String × Value)}
    (h : ∀ key v, (key, v) ∈ ms → key ≠ "type" ∧ v.tree.check n = .ok ()) :
    TypeTag.split g n (Value.object (("type", .text (t.variantName st)) :: ms)).tree =
      .ok (t.tag, (Value.object (("type", .text (t.variantName st)) :: ms)).tree) := by
  have variant : TypeTag.read g (Value.text (t.variantName st)).tree = .ok t.tag := by
    rw [Value.tree, TypeTag.read, Json.read_ofText]
    exact congrArg Except.ok (TypeTag.ofName_variantName st t)
  have members : TypeTag.readMembers g n none
      (Json.memberTrees (("type", .text (t.variantName st)) :: ms)) = .ok (some t.tag) := by
    rw [Json.memberTrees, TypeTag.readMembers, Json.read_ofText]
    simp only [bind, Except.bind, if_true, variant]
    exact TypeTag.readMembers_checked g h
  rw [Value.tree, TypeTag.split, members]
  rfl

theorem TypeExpr.eq_other_of_tag {t : TypeExpr} (h : t.tag = .other) : t = .other := by
  cases t <;> simp [tag] at h ⊢

theorem TypeExpr.ofFields_fields (st : Style) (t : TypeExpr) (h : t.tag ≠ .other) :
    ofFields t.tag (fun k => if k ∈ t.tag.keys then t.fields st k else none) = .ok t := by
  cases t with
  | reference name arguments =>
    have kept := st.kept_getD arguments
    change (Except.ok (.reference name ((st.kept arguments).getD [])) : Except Fault TypeExpr) = _
    rw [kept]
  | tuple elements =>
    have kept := st.kept_getD elements
    change (Except.ok (.tuple ((st.kept elements).getD [])) : Except Fault TypeExpr) = _
    rw [kept]
  | other => exact absurd rfl h
  | _ => rfl

theorem TypeExpr.reads_succ (h : ∀ m ≤ n, ReadsBack st m) (g : Regime) {t : TypeExpr}
    (hkinds : ∀ k ∈ t.kinds, k.Canonical) (hdepth : (t.encode st).depth ≤ n + 1) :
    Reads (n + 1) (TypeExpr.read g (n + 1)) (t.encode st) t := by
  rw [encode_eq] at hdepth ⊢
  have deep : (Value.object (membersOf TypeKey.label (t.value st) t.tag.keys)).depth ≤ n + 1 := by
    simp only [Value.depth, Json.membersDepth] at hdepth ⊢
    omega
  have fields (k : TypeKey) (hk : k ∈ t.tag.keys) :
      ReadsField n (readField n k) (t.value st k) (t.fields st k) := by
    refine readsField_map fun a ha => TypeKey.reads h ?_ (depth_le_of_member deep hk ?_)
    · exact fun kind hkind => hkinds kind (kinds_of_field ha hkind)
    · rw [value, ha, Option.map_some]
  have members (key : String) (v : Value)
      (hm : (key, v) ∈ membersOf TypeKey.label (t.value st) t.tag.keys) :
      key ≠ "type" ∧ v.tree.check n = .ok () := by
    obtain ⟨k, rfl, checked⟩ := Json.check_of_member fields hm
    exact ⟨k.label_ne_type, checked⟩
  constructor
  · apply Json.check_object
    intro key v hm
    rcases List.mem_cons.1 hm with heq | hm
    · obtain ⟨rfl, rfl⟩ := Prod.mk.inj heq
      exact (reads_text n _).check
    · exact (members key v hm).2
  · rw [read_succ, split_encode g t members]
    by_cases hother : t.tag = .other
    · obtain rfl := eq_other_of_tag hother
      rfl
    · have record : Json.readMembers t.tag.shape (readField n) Fields.none (Json.memberTrees
          (("type", .text (t.variantName st)) ::
            membersOf TypeKey.label (t.value st) t.tag.keys)) =
          .ok fun k => if k ∈ t.tag.keys then t.fields st k else none := by
        rw [Json.memberTrees, Json.readMembers_other _ t.tag.field_type]
        exact Json.readMembers_membersOf _ fields (fun k hk => t.tag.field_label hk)
          t.tag.keys_nodup Fields.none fun k _ => rfl
      simp only [bind, Except.bind, hother, if_false]
      simp only [Value.tree, readRecord, Json.readObjectForm, record, bind, Except.bind]
      exact ofFields_fields st t hother

def ReflectionKey.value (st : Style) (r : Reflection) : ReflectionKey → Option Json.Value
  | .name => some (.text r.name)
  | .kind => some (.number r.kind.bits.toNat)
  | .flags => r.flags.map Flags.encode
  | .comment => r.comment.map (Comment.encode st)
  | .type => r.type.map (TypeExpr.encode st)
  | .defaultValue => r.defaultValue.map .text
  | .sources => st.list (r.sources.map Source.encode)
  | .signatures => st.list (r.signatures.map (Reflection.encode st))
  | .parameters => st.list (r.parameters.map (Reflection.encode st))
  | .children => st.list (r.children.map (Reflection.encode st))
  | .typeParameters => st.list (r.typeParameters.map (Reflection.encode st))

namespace Reflection

def fields (st : Style) (r : Reflection) : Fields ReflectionKey.Value
  | .name => some r.name
  | .kind => some r.kind
  | .flags => r.flags.map some
  | .comment => r.comment.map some
  | .type => r.type.map some
  | .defaultValue => r.defaultValue.map some
  | .sources => st.kept r.sources
  | .signatures => st.kept r.signatures
  | .parameters => st.kept r.parameters
  | .children => st.kept r.children
  | .typeParameters => st.kept r.typeParameters

theorem encode_eq (st : Style) (r : Reflection) : r.encode st =
    .object (membersOf ReflectionKey.label (ReflectionKey.value st r) Reflection.shape.keys) := by
  rw [← presentMembers_map]
  cases r
  simp only [encode, encodeAll_eq, TypeExpr.encodeSome_eq]
  rfl

def readField (g : Regime) (n : Nat) : (k : ReflectionKey) → Json → Except Fault k.Value
  | .name => readText
  | .kind => Kind.read
  | .flags => readOption (Flags.read g n)
  | .comment => readOption (Comment.read g n)
  | .type => readOption (TypeExpr.read g n)
  | .defaultValue => readOption readText
  | .sources => readList (below (Source.read g) n)
  | .signatures => Reflection.readAll g n
  | .parameters => Reflection.readAll g n
  | .children => Reflection.readAll g n
  | .typeParameters => Reflection.readAll g n

theorem readAll_eq (g : Regime) (n : Nat) : readAll g n = readList (below (read g) n) := by
  cases n <;> rfl

theorem read_succ (g : Regime) (n : Nat) :
    Reflection.read g (n + 1) = readRecord g shape (some (readField g n)) ofFields := by
  rw [Reflection.read]
  rfl

theorem ofFields_fields (st : Style) (r : Reflection) : ofFields (r.fields st) = .ok r := by
  cases r
  simp only [ofFields, fields, optional_map_some, Style.kept_getD]
  rfl

theorem reads_children (h : ∀ m ≤ n, ReadsBack st m) (g : Regime) {rs : List Reflection}
    (hkinds : ∀ r ∈ rs, ∀ k ∈ r.kinds, k.Canonical)
    (hdepth : ∀ v, st.list (rs.map (encode st)) = some v → v.depth ≤ n) :
    ReadsField n (readAll g n) (st.list (rs.map (encode st))) (st.kept rs) := by
  rw [readAll_eq]
  apply readsField_below hdepth
  intro m hm r hr hd
  exact (h m (Nat.le_of_lt hm)).reflection g r (hkinds r hr) hd

theorem reads_succ (h : ∀ m ≤ n, ReadsBack st m) (g : Regime) {r : Reflection}
    (hkinds : ∀ k ∈ r.kinds, k.Canonical) (hdepth : (r.encode st).depth ≤ n + 1) :
    Reads (n + 1) (Reflection.read g (n + 1)) (r.encode st) r := by
  rw [encode_eq] at hdepth ⊢
  have deep {k : ReflectionKey} (hk : k ∈ shape.keys) {v : Value}
      (hv : ReflectionKey.value st r k = some v) : v.depth ≤ n := depth_le_of_member hdepth hk hv
  rw [read_succ]
  refine reads_record shape (r.fields st) (fun k => ?_) ?_ ?_ (by decide) (ofFields_fields st r)
  · cases k with
    | name => exact .present (reads_text n _)
    | kind =>
      have canonical : Kind.ofBits r.kind.bits = r.kind := hkinds _ r.kind_mem_kinds
      have word := (reads_word n r.kind.bits).map Kind.ofBits
      rw [canonical] at word
      exact .present word
    | flags =>
      refine readsField_option fun f hf => f.reads (deep (k := .flags) (by decide) ?_) g
      rw [ReflectionKey.value, hf, Option.map_some]
    | comment =>
      refine readsField_option fun c hc => c.reads (deep (k := .comment) (by decide) ?_) g
      rw [ReflectionKey.value, hc, Option.map_some]
    | type =>
      refine readsField_option fun t ht => (h n (Nat.le_refl n)).type g t ?_
        (deep (k := .type) (by decide) ?_)
      · exact fun k hk => hkinds k (mem_kinds_of_type ht hk)
      · rw [ReflectionKey.value, ht, Option.map_some]
    | defaultValue => exact readsField_option fun text _ => reads_text n text
    | sources =>
      exact readsField_below (fun v => deep (k := .sources) (by decide)) fun m _ s _ hs =>
        Source.reads hs g
    | signatures =>
      exact reads_children h g (fun s hs k hk => hkinds k (mem_kinds_of_signatures hs hk))
        fun v => deep (k := .signatures) (by decide)
    | parameters =>
      exact reads_children h g (fun s hs k hk => hkinds k (mem_kinds_of_parameters hs hk))
        fun v => deep (k := .parameters) (by decide)
    | children =>
      exact reads_children h g (fun s hs k hk => hkinds k (mem_kinds_of_children hs hk))
        fun v => deep (k := .children) (by decide)
    | typeParameters =>
      exact reads_children h g (fun s hs k hk => hkinds k (mem_kinds_of_typeParameters hs hk))
        fun v => deep (k := .typeParameters) (by decide)
  · intro k
    cases k <;> rfl
  · intro k
    cases k <;> decide

end Reflection

theorem readsBack (st : Style) (n : Nat) : ReadsBack st n := by
  induction n using Nat.strongRecOn with
  | ind n ih =>
    constructor
    · intro g t hkinds hdepth
      obtain ⟨m, rfl⟩ := Json.levels_of_object (t.encode_eq st ▸ hdepth)
      exact TypeExpr.reads_succ (fun l hl => ih l (Nat.lt_succ_of_le hl)) g hkinds hdepth
    · intro g r hkinds hdepth
      obtain ⟨m, rfl⟩ := Json.levels_of_object (r.encode_eq st ▸ hdepth)
      exact Reflection.reads_succ (fun l hl => ih l (Nat.lt_succ_of_le hl)) g hkinds hdepth

/-- Reading what was written as a reflection gives that reflection back, in every style and every
layout, when its kinds are canonical and its text does not nest too deeply to be read. -/
theorem Reflection.ofText_encode (st : Style) (l : Json.Layout) (r : Reflection)
    (hkinds : ∀ k ∈ r.kinds, k.Canonical) (hdepth : (r.encode st).depth ≤ 127) :
    Reflection.ofText ((r.encode st).write l) = .ok r := by
  have done := ((readsBack st Json.maxLevels).reflection .direct r hkinds hdepth).read
  rw [Reflection.ofText, Json.Document.ofText_write, Json.Document.decode, done]
  rfl

def inlineProperty : Reflection where
  name := "say \"hi\"\n"
  kind := .property
  flags := some ⟨some true, none, some false, none, none, none, none, none⟩
  comment := some ⟨"", "\u0001 λ", [⟨"see", "there"⟩]⟩
  type := some (.union [.other, .inline
    { name := "__type", kind := .typeLiteral, flags := none, comment := none,
      type := some (.tuple [.intrinsic "number"]), defaultValue := none, sources := [],
      signatures := [], parameters := [], children := [], typeParameters := [] }])
  defaultValue := none
  sources := [⟨"a.ts", none, 3, 4294967295⟩]
  signatures := []
  parameters := []
  children := []
  typeParameters := []

theorem Reflection.ofText_encode_inlineProperty :
    (∀ k ∈ inlineProperty.kinds, k.Canonical) ∧
      (inlineProperty.encode ⟨"conditional", by decide, true, false⟩).depth ≤ 127 ∧
      Reflection.ofText ((inlineProperty.encode ⟨"conditional", by decide, true, false⟩).write
        .wide) = .ok inlineProperty :=
  ⟨by decide, by decide,
    Reflection.ofText_encode ⟨"conditional", by decide, true, false⟩ .wide inlineProperty
      (by decide) (by decide)⟩

end DocTree
