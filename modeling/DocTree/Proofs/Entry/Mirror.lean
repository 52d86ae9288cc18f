import DocTree.Proofs.Entry.Members
import DocTree.Proofs.Reflection.Address
import Mathlib.Data.List.Forall2

/-!
# The entries mirror the graph

The entries of a project have the shape of its reflection graph. The containers
stand for the interfaces and then the classes at all addresses below the root, in
the order of these addresses. In a container the methods and the properties stand
for the children that are admitted, a method shows every signature, and a
signature shows the parameters that are admitted. Nothing else is shown, every
entry bears the name of its reflection, and its kind is that of its level.
-/
namespace DocTree

/-- One result for each element that is wanted, in their order, and no other result. -/
inductive Selects {α β : Type} (wanted : α → Prop) (rel : α → β → Prop) : List α → List β → Prop
  | nil : Selects wanted rel [] []
  | keep {a : α} {b : β} {as : List α} {bs : List β} :
      wanted a → rel a b → Selects wanted rel as bs → Selects wanted rel (a :: as) (b :: bs)
  | skip {a : α} {as : List α} {bs : List β} :
      ¬ wanted a → Selects wanted rel as bs → Selects wanted rel (a :: as) bs

theorem selects_map_filter {α β : Type} {wanted : α → Prop} {rel : α → β → Prop} (test : α → Bool)
    (f : α → β) (htest : ∀ a, test a = true ↔ wanted a) (hf : ∀ a, rel a (f a)) (as : List α) :
    Selects wanted rel as ((as.filter test).map f) := by
  induction as with
  | nil => exact .nil
  | cons a as ih =>
    by_cases ha : test a
    · rw [List.filter_cons_of_pos ha, List.map_cons]
      exact .keep ((htest a).1 ha) (hf a) ih
    · rw [List.filter_cons_of_neg ha]
      exact .skip (mt (htest a).2 ha) ih

namespace Entry

def Settings.Admits (s : Settings) (r : Reflection) : Prop :=
  s.options.includeNonExported = true ∨ ∃ f, r.flags = some f ∧ f.isExported = some true

theorem Settings.admits_iff (s : Settings) (r : Reflection) : s.admits r = true ↔ s.Admits r := by
  unfold admits Admits Reflection.isExported Reflection.hasFlag
  rw [Bool.or_eq_true]
  apply or_congr_right
  cases r.flags with
  | none => simp
  | some f => cases hf : f.isExported <;> simp [hf]

structure Labelled (kind : String) (r : Reflection) (h : Header) (v : Json.Value) : Prop where
  name : h.name = r.name
  writtenName : v.under "name" = [.text r.name]
  writtenKind : v.under "kind" = [.text kind]

theorem WrittenBy.labelled {kind : String} {s : Settings} {r : Reflection} {v : Json.Value}
    (hv : WrittenBy kind (s.header r) v) : Labelled kind r (s.header r) v :=
  ⟨rfl, hv.under_name, hv.under_kind⟩

def Parameter.Mirrors (r : Reflection) (p : Parameter) : Prop :=
  Labelled "Parameter" r p.header p.encode

def Property.Mirrors (r : Reflection) (p : Property) : Prop :=
  Labelled "Property" r p.header p.encode

structure Signature.Mirrors (s : Settings) (r : Reflection) (g : Signature) : Prop where
  label : Labelled "Signature" r g.header g.encode
  parameters : Selects s.Admits Parameter.Mirrors r.parameters g.parameters

structure Method.Mirrors (s : Settings) (r : Reflection) (m : Method) : Prop where
  label : Labelled "Method" r m.header m.encode
  signatures : List.Forall₂ (Signature.Mirrors s) r.signatures m.signatures

structure Container.Mirrors (s : Settings) (kind : String) (r : Reflection) (c : Container) :
    Prop where
  label : Labelled kind r c.header c.encode
  methods : Selects (fun d => d.kind = .method ∧ s.Admits d) (Method.Mirrors s) r.children c.methods
  properties :
    Selects (fun d => d.kind = .property ∧ s.Admits d) Property.Mirrors r.children c.properties

structure AddressesOf (k : Kind) (r : Reflection) (ps : List (List Nat)) : Prop where
  ordered : ps.Pairwise (· < ·)
  mem_iff : ∀ p, p ∈ ps ↔ p ≠ [] ∧ ∃ d, r.at? p = some d ∧ d.kind = k

def MirrorAt (s : Settings) (kind : String) (r : Reflection) :
    List (List Nat) → List Container → Prop :=
  List.Forall₂ fun p c => ∃ d, r.at? p = some d ∧ Container.Mirrors s kind d c

namespace Settings

variable (s : Settings)

theorem parameter_mirrors (r : Reflection) : Parameter.Mirrors r (s.parameter r) :=
  WrittenBy.labelled (s.parameter r).written

theorem property_mirrors (r : Reflection) : Property.Mirrors r (s.property r) :=
  WrittenBy.labelled (s.property r).written

theorem signature_mirrors (r : Reflection) : Signature.Mirrors s r (s.signature r) where
  label := WrittenBy.labelled (s.signature r).written
  parameters :=
    selects_map_filter s.admits s.parameter s.admits_iff s.parameter_mirrors r.parameters

theorem method_mirrors (r : Reflection) : Method.Mirrors s r (s.method r) where
  label := WrittenBy.labelled (s.method r).written
  signatures := by
    apply List.forall₂_map_right_iff.2
    apply List.forall₂_same.2
    exact fun d _ => s.signature_mirrors d

theorem members_select {β : Type} {rel : Reflection → β → Prop} (k : Kind) (f : Reflection → β)
    (hf : ∀ d, rel d (f d)) (r : Reflection) :
    Selects (fun d => d.kind = k ∧ s.Admits d) rel r.children
      (((r.childrenOfKind k).filter s.admits).map f) := by
  rw [Reflection.childrenOfKind, List.filter_filter]
  refine selects_map_filter _ f (fun d => ?_) hf r.children
  rw [Bool.and_eq_true, s.admits_iff, beq_iff_eq, and_comm]

theorem container_mirrors (k : ContainerKind) (r : Reflection) :
    Container.Mirrors s k.name r (s.container k r) where
  label := WrittenBy.labelled (s.container k r).written
  methods := s.members_select .method s.method s.method_mirrors r
  properties := s.members_select .property s.property s.property_mirrors r

theorem containers_located {rel : Reflection → Container → Prop} (k : Kind) (ck : ContainerKind)
    (hrel : ∀ d, rel d (s.container ck d)) (r : Reflection) :
    ∃ ps, AddressesOf k r ps ∧
      List.Forall₂ (fun p c => ∃ d, r.at? p = some d ∧ rel d c) ps
        ((r.descendantsOfKind k).map (s.container ck)) := by
  let found := r.located.filter (·.2.kind == k)
  have mem_found : ∀ p d, (p, d) ∈ found ↔ (p ≠ [] ∧ r.at? p = some d) ∧ d.kind = k := by
    intro p d
    rw [List.mem_filter, Reflection.mem_located, beq_iff_eq]
  have descendants_eq : r.descendantsOfKind k = found.map Prod.snd := by
    rw [Reflection.descendantsOfKind, ← Reflection.map_snd_located, List.filter_map]
    rfl
  refine ⟨found.map Prod.fst, ⟨?_, fun p => ?_⟩, ?_⟩
  · rw [List.pairwise_map]
    exact r.located_ordered.filter _
  · rw [List.mem_map]
    constructor
    · rintro ⟨⟨p, d⟩, hp, rfl⟩
      obtain ⟨⟨hne, hd⟩, hk⟩ := (mem_found p d).1 hp
      exact ⟨hne, d, hd, hk⟩
    · rintro ⟨hne, d, hd, hk⟩
      exact ⟨(p, d), (mem_found p d).2 ⟨⟨hne, hd⟩, hk⟩, rfl⟩
  · rw [descendants_eq, List.map_map, List.forall₂_map_left_iff, List.forall₂_map_right_iff]
    apply List.forall₂_same.2
    rintro ⟨p, d⟩ hp
    exact ⟨d, ((mem_found p d).1 hp).1.2, hrel d⟩

theorem containers_mirror (k : Kind) (ck : ContainerKind) (r : Reflection) :
    ∃ ps, AddressesOf k r ps ∧
      MirrorAt s ck.name r ps ((r.descendantsOfKind k).map (s.container ck)) :=
  s.containers_located k ck (s.container_mirrors ck) r

/-- The entries of a project: one container for each interface below the root, then one for each
class, both in pre-order, and every container with the members that are admitted. -/
theorem project_mirrors (r : Reflection) :
    ∃ interfaces classes is cs,
      AddressesOf .interface r interfaces ∧ AddressesOf .classType r classes ∧
      s.project r = is ++ cs ∧
      MirrorAt s "Interface" r interfaces is ∧ MirrorAt s "Class" r classes cs := by
  obtain ⟨ps, hps, his⟩ := s.containers_mirror .interface .interface r
  obtain ⟨qs, hqs, hcs⟩ := s.containers_mirror .classType .classType r
  exact ⟨ps, qs, _, _, hps, hqs, rfl, his, hcs⟩

end Settings

end Entry

end DocTree
