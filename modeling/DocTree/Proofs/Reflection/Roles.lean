import DocTree.Proofs.Json.Members
import DocTree.Proofs.Reflection.RoundTrip

/-!
# The records of a graph

A graph is decoded from records of six roles, which hold each other in their fields: one
record, maybe left out, or a list of them. An object gives the fields by their keys, an
array by their positions; what a key of a type stands for depends on its variant. A value
that is put in place of another one inside a record is read as part of the record like
the other one when the field reads the two alike.
-/
namespace DocTree

open Json (Fields Regime Fault Member Literal Ending Shape Keeps readText readBool readOption
  readList readRecord keeps_error)

inductive Role where
  | reflection | flags | comment | tag | source | type
  deriving DecidableEq, Repr

abbrev Role.Value : Role → Type
  | reflection => Reflection
  | flags => Flags
  | comment => Comment
  | tag => Tag
  | source => Source
  | type => TypeExpr

def Role.read : (ρ : Role) → Regime → Nat → Json → Except Fault ρ.Value
  | reflection => Reflection.read
  | flags => Flags.read
  | comment => Comment.read
  | tag => Tag.read
  | source => Source.read
  | type => TypeExpr.read

inductive Slot where
  | one (ρ : Role)
  | many (ρ : Role)
  deriving DecidableEq, Repr

abbrev Slot.Value : Slot → Type
  | one ρ => ρ.Value
  | many ρ => List ρ.Value

def Slot.read : (σ : Slot) → Regime → Nat → Json → Except Fault σ.Value
  | one ρ, g, n => ρ.read g n
  | many ρ, g, n => readList (below (ρ.read g) n)

/-- The fields of a record; a type has one for its variant besides those of the variant. -/
abbrev Role.Key : Role → Type
  | reflection => ReflectionKey
  | flags => FlagKey
  | comment => CommentKey
  | tag => TagKey
  | source => SourceKey
  | type => Option TypeKey

def ReflectionKey.slot? : ReflectionKey → Option Slot
  | name | kind | defaultValue => none
  | flags => some (.one .flags)
  | comment => some (.one .comment)
  | type => some (.one .type)
  | sources => some (.many .source)
  | signatures | parameters | children | typeParameters => some (.many .reflection)

def CommentKey.slot? : CommentKey → Option Slot
  | shortText | text => none
  | tags => some (.many .tag)

def TypeKey.slot? : TypeKey → Option Slot
  | name | value | operator => none
  | typeArguments | types | elements => some (.many .type)
  | elementType | target => some (.one .type)
  | declaration => some (.one .reflection)

def Role.slot? : (ρ : Role) → ρ.Key → Option Slot
  | reflection, k => k.slot?
  | comment, k => k.slot?
  | type, k => k.bind TypeKey.slot?
  | flags, _ | tag, _ | source, _ => none

def Role.isOption : (ρ : Role) → ρ.Key → Bool
  | reflection, k => k.isOption
  | flags, _ => true
  | source, k => k == .fullFileName
  | comment, _ | tag, _ | type, _ => false

def Role.keyOf? : (ρ : Role) → Option TypeTag → Literal → Option ρ.Key
  | reflection, _, key => Reflection.shape.fieldOf? key
  | flags, _, key => Flags.shape.fieldOf? key
  | comment, _, key => Comment.shape.fieldOf? key
  | tag, _, key => Tag.shape.fieldOf? key
  | source, _, key => Source.shape.fieldOf? key
  | type, variant, key =>
      if key.read.toOption = some "type" then some none
      else variant.bind fun t => (t.shape.fieldOf? key).map some

def Role.keys : (ρ : Role) → Option TypeTag → List ρ.Key
  | reflection, _ => Reflection.shape.keys
  | flags, _ => Flags.shape.keys
  | comment, _ => Comment.shape.keys
  | tag, _ => Tag.shape.keys
  | source, _ => Source.shape.keys
  | type, none => []
  | type, some t => none :: t.keys.map some

def Json.variant? (g : Regime) : Json → Option TypeTag
  | .list (j :: _) _ => (TypeTag.read g j).toOption
  | .object ms _ =>
      ms.findSome? fun m =>
        if m.1.read.toOption = some "type" then (TypeTag.read g m.2).toOption else none
  | _ => none

def Role.inside : Role → Regime → Regime
  | type, _ => .kept
  | _, g => g

def Json.IsContainer : Json → Prop
  | .list _ _ | .object _ _ => True
  | _ => False

inductive FieldReader (g : Regime) (n : Nat) :
    Option Slot → (α : Type) → (Json → Except Fault α) → Prop
  | scalar {α : Type} {read : Json → Except Fault α} :
      (∀ j, j.IsContainer → ∃ fault, read j = .error fault) → FieldReader g n none α read
  | present (σ : Slot) : FieldReader g n (some σ) σ.Value (σ.read g n)
  | optional (σ : Slot) : FieldReader g n (some σ) (Option σ.Value) (readOption (σ.read g n))

section FieldReader

variable {g : Regime} {n : Nat} {o : Option Slot} {α : Type} {read : Json → Except Fault α}
  {j k : Json}

theorem readOption_container (hj : j.IsContainer) : readOption read j = (read j).map some := by
  cases j with
  | list => rfl
  | object => rfl
  | _ => exact hj.elim

theorem FieldReader.keeps (h : FieldReader g n o α read) (hj : j.IsContainer)
    (hk : k.IsContainer) (hjk : ∀ σ, o = some σ → Keeps (σ.read g n j) (σ.read g n k)) :
    Keeps (read j) (read k) := by
  cases h with
  | scalar refused =>
    obtain ⟨fault, refused⟩ := refused j hj
    rw [refused]
    exact keeps_error fault _
  | present σ => exact hjk σ rfl
  | optional σ =>
    rw [readOption_container hj, readOption_container hk]
    exact (hjk σ rfl).map some

theorem FieldReader.accepted (h : FieldReader g n o α read) (hj : j.IsContainer) {a : α}
    (ha : read j = .ok a) {σ : Slot} (hσ : o = some σ) : ∃ b, σ.read g n j = .ok b := by
  cases h with
  | scalar => exact nomatch hσ
  | present =>
    obtain rfl := Option.some.inj hσ
    exact ⟨a, ha⟩
  | optional =>
    obtain rfl := Option.some.inj hσ
    rw [readOption_container hj] at ha
    obtain ⟨b, hb, -⟩ := Json.map_eq_ok.1 ha
    exact ⟨b, hb⟩

theorem scalar_of_refused (list : ∀ js e, ∃ fault, read (.list js e) = .error fault)
    (object : ∀ ms e, ∃ fault, read (.object ms e) = .error fault) :
    FieldReader g n none α read := by
  apply FieldReader.scalar
  intro j hj
  cases j with
  | list js e => exact list js e
  | object ms e => exact object ms e
  | _ => exact hj.elim

theorem readText_scalar : FieldReader g n none String readText :=
  scalar_of_refused (fun _ _ => ⟨_, rfl⟩) fun _ _ => ⟨_, rfl⟩

end FieldReader

structure ReadsRecord {α κ : Type} [DecidableEq κ] {τ : κ → Type} (g : Regime) (n : Nat)
    (slot? : κ → Option Slot) (isOption : κ → Bool) (s : Shape κ)
    (read : (k : κ) → Json → Except Fault (τ k)) (build : Fields τ → Except Fault α) : Prop where
  fields : ∀ k, FieldReader g n (slot? k) (τ k) (read k)
  absent : ∀ k, isOption k → ∃ v, read k .null = .ok v ∧
    ∀ f, f k = none → build (f.set k v) = build f
  distinct : s.keys.Nodup

namespace ReadsRecord

variable {α κ : Type} [DecidableEq κ] {τ : κ → Type} {g : Regime} {n : Nat}
  {slot? : κ → Option Slot} {isOption : κ → Bool} {s : Shape κ}
  {read : (k : κ) → Json → Except Fault (τ k)} {build : Fields τ → Except Fault α}
  {e : Ending} {key : Literal} {j k : Json}

theorem keeps_member (h : ReadsRecord g n slot? isOption s read build) (hj : j.IsContainer)
    (hk : k.IsContainer) (hother : s.fieldOf? key = none → Keeps j.skip k.skip)
    (hjk : ∀ l σ, s.fieldOf? key = some l → slot? l = some σ →
      Keeps (σ.read g n j) (σ.read g n k)) (pre post : List Member) :
    Keeps (readRecord g s (some read) build (.object (pre ++ (key, j) :: post) e))
      (readRecord g s (some read) build (.object (pre ++ (key, k) :: post) e)) := by
  apply Json.keeps_readRecord_member hother
  intro l hl
  exact (h.fields l).keeps hj hk fun σ hσ => hjk l σ hl hσ

theorem keeps_item (h : ReadsRecord g n slot? isOption s read build) (hj : j.IsContainer)
    (hk : k.IsContainer) {pre : List Json}
    (hjk : ∀ l σ, s.keys[pre.length]? = some l → slot? l = some σ →
      Keeps (σ.read g n j) (σ.read g n k)) (post : List Json) :
    Keeps (readRecord g s (some read) build (.list (pre ++ j :: post) e))
      (readRecord g s (some read) build (.list (pre ++ k :: post) e)) := by
  apply Json.keeps_readRecord_item
  intro l hl
  exact (h.fields l).keeps hj hk fun σ hσ => hjk l σ hl hσ

theorem keeps_absent (h : ReadsRecord g n slot? isOption s read build) {l : κ}
    (hl : s.fieldOf? key = some l) (option : isOption l) {pre post : List Member}
    (missing : ∀ m ∈ pre ++ post, s.fieldOf? m.1 ≠ some l) :
    Keeps (readRecord g s (some read) build (.object (pre ++ post) e))
      (readRecord g s (some read) build (.object (pre ++ (key, .null) :: post) e)) := by
  obtain ⟨v, hv, hbuild⟩ := h.absent l option
  exact Json.keeps_readRecord_absent hl hv hbuild missing

theorem list_iff_object (h : ReadsRecord g n slot? isOption s read build)
    (closed : ∀ b, e ≠ .broken b) {items : List Json} {ms : List Member}
    (labelled : Json.Labelled s.fieldOf? s.keys items ms) (a : α) :
    readRecord g s (some read) build (.list items e) = .ok a ↔
      readRecord g s (some read) build (.object ms e) = .ok a := by
  rw [Json.readRecord_list_eq_object closed labelled h.distinct]

theorem accepted_member (h : ReadsRecord g n slot? isOption s read build) (hj : j.IsContainer)
    {pre post : List Member} {a : α}
    (ha : readRecord g s (some read) build (.object (pre ++ (key, j) :: post) e) = .ok a)
    {l : κ} (hl : s.fieldOf? key = some l) {σ : Slot} (hσ : slot? l = some σ) :
    ∃ b, σ.read g n j = .ok b := by
  obtain ⟨v, hv⟩ := Json.readRecord_member ha hl
  exact (h.fields l).accepted hj hv hσ

theorem accepted_item (h : ReadsRecord g n slot? isOption s read build) (hj : j.IsContainer)
    {pre post : List Json} {a : α}
    (ha : readRecord g s (some read) build (.list (pre ++ j :: post) e) = .ok a)
    {l : κ} (hl : s.keys[pre.length]? = some l) {σ : Slot} (hσ : slot? l = some σ) :
    ∃ b, σ.read g n j = .ok b := by
  obtain ⟨v, hv⟩ := Json.readRecord_item ha hl
  exact (h.fields l).accepted hj hv hσ

end ReadsRecord

section Roles

variable (g : Regime) (n : Nat)

theorem Flags.reads_record : ReadsRecord g n (Role.slot? .flags) (Role.isOption .flags) Flags.shape
    (fun _ => readOption readBool) Flags.ofFields where
  fields _ := scalar_of_refused (fun _ _ => ⟨_, rfl⟩) fun _ _ => ⟨_, rfl⟩
  absent k _ := by
    refine ⟨none, rfl, fun f hf => ?_⟩
    cases k <;> simp [ofFields, Fields.set, Json.optional, hf]
  distinct := by decide

theorem Tag.reads_record : ReadsRecord g n (Role.slot? .tag) (Role.isOption .tag) Tag.shape
    (fun _ => readText) Tag.ofFields where
  fields _ := readText_scalar
  absent _ h := nomatch h
  distinct := by decide

theorem Comment.reads_record : ReadsRecord g n (Role.slot? .comment) (Role.isOption .comment)
    Comment.shape (Comment.readField g n) Comment.ofFields where
  fields k := by
    cases k with
    | shortText | text => exact readText_scalar
    | tags => exact .present (.many .tag)
  absent _ h := nomatch h
  distinct := by decide

theorem Source.reads_record : ReadsRecord g n (Role.slot? .source) (Role.isOption .source)
    Source.shape Source.readField Source.ofFields where
  fields k := by
    cases k with
    | fileName => exact readText_scalar
    | _ => exact scalar_of_refused (fun _ _ => ⟨_, rfl⟩) fun _ _ => ⟨_, rfl⟩
  absent k h := by
    cases k with
    | fullFileName =>
      refine ⟨none, rfl, fun f hf => ?_⟩
      simp [ofFields, Fields.set, Json.optional, hf]
    | _ => exact absurd h Bool.false_ne_true
  distinct := by decide

theorem Reflection.reads_record : ReadsRecord g n (Role.slot? .reflection)
    (Role.isOption .reflection) Reflection.shape (Reflection.readField g n)
    Reflection.ofFields where
  fields k := by
    cases k with
    | name => exact readText_scalar
    | kind => exact scalar_of_refused (fun _ _ => ⟨_, rfl⟩) fun _ _ => ⟨_, rfl⟩
    | defaultValue => exact scalar_of_refused (fun _ _ => ⟨_, rfl⟩) fun _ _ => ⟨_, rfl⟩
    | flags => exact .optional (.one .flags)
    | comment => exact .optional (.one .comment)
    | type => exact .optional (.one .type)
    | sources => exact .present (.many .source)
    | signatures | parameters | children | typeParameters =>
      rw [Reflection.readField, Reflection.readAll_eq]
      exact .present (.many .reflection)
  absent k h := by
    cases k with
    | flags | comment | type | defaultValue =>
      refine ⟨none, rfl, fun f hf => ?_⟩
      simp [ofFields, Fields.set, Json.optional, hf]
    | _ => exact absurd h Bool.false_ne_true
  distinct := by decide

theorem TypeExpr.reads_record (t : TypeTag) : ReadsRecord .kept n TypeKey.slot? (fun _ => false)
    t.shape (TypeExpr.readField n) (TypeExpr.ofFields t) where
  fields k := by
    cases k with
    | name | value | operator => exact readText_scalar
    | typeArguments | types | elements =>
      rw [TypeExpr.readField, TypeExpr.readAll_eq]
      exact .present (.many .type)
    | elementType | target => exact .present (.one .type)
    | declaration => exact .present (.one .reflection)
  absent _ h := nomatch h
  distinct := t.keys_nodup

end Roles

end DocTree
