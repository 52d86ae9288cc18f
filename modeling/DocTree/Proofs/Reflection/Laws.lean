import DocTree.Proofs.Reflection.Variants

/-!
# What holds of records of every role

The fields of five roles are read straight from the record. A type is read twice, for its
variant and then for the fields of the variant, and checked in between. The same laws hold
of all six, so what follows need not tell them apart.
-/
namespace DocTree

open Json (Fields Regime Fault Member Literal Ending Shape Keeps Labelled readRecord)

/-- The laws of the records of a role, with `n` levels left below them. -/
structure Role.Lawful (ρ : Role) (g : Regime) (n : Nat) : Prop where
  keeps_member {e : Ending} {key : Literal} {j k : Json} {pre post : List Member} :
    j.IsContainer → k.IsContainer →
    (ρ.keyOf? ((Json.object (pre ++ (key, j) :: post) e).variant? g) key = none →
      Keeps j.skip k.skip) →
    (ρ = .type → Keeps (j.check n) (k.check n)) →
    (∀ l σ, ρ.keyOf? ((Json.object (pre ++ (key, j) :: post) e).variant? g) key = some l →
      ρ.slot? l = some σ → Keeps (σ.read (ρ.inside g) n j) (σ.read (ρ.inside g) n k)) →
    Keeps (ρ.read g (n + 1) (.object (pre ++ (key, j) :: post) e))
      (ρ.read g (n + 1) (.object (pre ++ (key, k) :: post) e))
  keeps_item {e : Ending} {j k : Json} {pre post : List Json} :
    j.IsContainer → k.IsContainer →
    (ρ = .type → Keeps (j.check n) (k.check n)) →
    (∀ l σ, (ρ.keys ((Json.list (pre ++ j :: post) e).variant? g))[pre.length]? = some l →
      ρ.slot? l = some σ → Keeps (σ.read (ρ.inside g) n j) (σ.read (ρ.inside g) n k)) →
    Keeps (ρ.read g (n + 1) (.list (pre ++ j :: post) e))
      (ρ.read g (n + 1) (.list (pre ++ k :: post) e))
  accepted_member {e : Ending} {key : Literal} {j : Json} {pre post : List Member}
    {a : ρ.Value} {l : ρ.Key} {σ : Slot} :
    j.IsContainer → ρ.read g (n + 1) (.object (pre ++ (key, j) :: post) e) = .ok a →
    ρ.keyOf? ((Json.object (pre ++ (key, j) :: post) e).variant? g) key = some l →
    ρ.slot? l = some σ → ∃ b, σ.read (ρ.inside g) n j = .ok b
  accepted_item {e : Ending} {j : Json} {pre post : List Json} {a : ρ.Value} {l : ρ.Key}
    {σ : Slot} :
    j.IsContainer → ρ.read g (n + 1) (.list (pre ++ j :: post) e) = .ok a →
    (ρ.keys ((Json.list (pre ++ j :: post) e).variant? g))[pre.length]? = some l →
    ρ.slot? l = some σ → ∃ b, σ.read (ρ.inside g) n j = .ok b
  keeps_perm {e : Ending} {ms ns : List Member} :
    ms.Perm ns → Keeps (ρ.read g (n + 1) (.object ms e)) (ρ.read g (n + 1) (.object ns e))
  not_repeated {e : Ending} {m m' : Member} {ms rest : List Member} {l : ρ.Key} :
    ms.Perm (m :: m' :: rest) →
    ρ.keyOf? ((Json.object ms e).variant? g) m.1 = some l →
    ρ.keyOf? ((Json.object ms e).variant? g) m'.1 = some l →
    ∀ a, ρ.read g (n + 1) (.object ms e) ≠ .ok a
  keeps_ignored {e : Ending} {key : Literal} {name : String} {v : Json} {pre post : List Member} :
    key.read = .ok name → ρ.keyOf? ((Json.object (pre ++ post) e).variant? g) key = none →
    v.skip = .ok () → (ρ = .type → v.check n = .ok ()) →
    Keeps (ρ.read g (n + 1) (.object (pre ++ post) e))
      (ρ.read g (n + 1) (.object (pre ++ (key, v) :: post) e))
  keeps_absent {e : Ending} {key : Literal} {pre post : List Member} {l : ρ.Key} :
    ρ.keyOf? ((Json.object (pre ++ post) e).variant? g) key = some l → ρ.isOption l →
    (∀ m ∈ pre ++ post, ρ.keyOf? ((Json.object (pre ++ post) e).variant? g) m.1 ≠ some l) →
    Keeps (ρ.read g (n + 1) (.object (pre ++ post) e))
      (ρ.read g (n + 1) (.object (pre ++ (key, .null) :: post) e))
  list_iff_object {e : Ending} {items : List Json} {ns : List Member} :
    (∀ b, e ≠ .broken b) →
    Labelled (ρ.keyOf? ((Json.list items e).variant? g))
      (ρ.keys ((Json.list items e).variant? g)) items ns →
    ∀ a, ρ.read g (n + 1) (.list items e) = .ok a ↔ ρ.read g (n + 1) (.object ns e) = .ok a

theorem ReadsRecord.lawful {ρ : Role} [DecidableEq ρ.Key] {g : Regime} {n : Nat}
    {τ : ρ.Key → Type} {s : Shape ρ.Key} {read : (k : ρ.Key) → Json → Except Fault (τ k)}
    {build : Fields τ → Except Fault ρ.Value}
    (h : ReadsRecord g n ρ.slot? ρ.isOption s read build)
    (hread : ρ.read g (n + 1) = readRecord g s (some read) build)
    (hkey : ∀ v, ρ.keyOf? v = s.fieldOf?) (hkeys : ∀ v, ρ.keys v = s.keys)
    (hinside : ρ.inside g = g) : ρ.Lawful g n := by
  constructor <;> simp only [hread, hkey, hkeys, hinside]
  case keeps_member => exact fun hj hk hskip _ hjk => h.keeps_member hj hk hskip hjk _ _
  case keeps_item => exact fun hj hk _ hjk => h.keeps_item hj hk hjk _
  case accepted_member => exact fun hj ha hl hσ => h.accepted_member hj ha hl hσ
  case accepted_item => exact fun hj ha hl hσ => h.accepted_item hj ha hl hσ
  case keeps_perm => exact Json.keeps_readRecord_perm
  case not_repeated => exact fun p hm hm' a => Json.readRecord_repeated p hm hm' a
  case keeps_ignored =>
    intro e key name v pre post hname hother hskip _
    rw [Json.readRecord_ignored hname hother hskip]
    exact Keeps.refl _
  case keeps_absent => exact fun hl option missing => h.keeps_absent hl option missing
  case list_iff_object => exact fun closed labelled a => h.list_iff_object closed labelled a

namespace TypeExpr

variable {g : Regime} {n : Nat} {e : Ending} {key : Literal} {j k : Json}

theorem keeps_member {pre post : List Member} (hj : j.IsContainer) (hk : k.IsContainer)
    (hskip : Role.keyOf? .type ((Json.object (pre ++ (key, j) :: post) e).variant? g) key = none →
      Keeps j.skip k.skip)
    (hcheck : Keeps (j.check n) (k.check n))
    (hjk : ∀ l σ,
      Role.keyOf? .type ((Json.object (pre ++ (key, j) :: post) e).variant? g) key = some l →
      Role.slot? .type l = some σ → Keeps (σ.read .kept n j) (σ.read .kept n k)) :
    Keeps (TypeExpr.read g (n + 1) (.object (pre ++ (key, j) :: post) e))
      (TypeExpr.read g (n + 1) (.object (pre ++ (key, k) :: post) e)) := by
  intro t ht
  obtain ⟨tag, members, ending, body⟩ := read_object_eq_ok.1 ht
  -- no record is the value of the variant, so the variant stays what it was
  have other := TypeTag.key_ne_type hj members
  rw [TypeTag.variant?_object members, tag.keyOf?_eq other] at hskip hjk
  have replaced := TypeTag.keeps_readMembers_replace hj hcheck pre post _ members
  refine read_object_eq_ok.2 ⟨tag, replaced, ending, keeps_readBody_object ?_ t body⟩
  refine (reads_record n tag).keeps_member hj hk ?_ ?_ pre post
  · intro none
    exact hskip (by rw [none, Option.map_none])
  · intro l σ hl hσ
    exact hjk (some l) σ (by rw [hl, Option.map_some]) hσ

theorem keeps_item {pre post : List Json} (hj : j.IsContainer) (hk : k.IsContainer)
    (hcheck : Keeps (j.check n) (k.check n))
    (hjk : ∀ l σ,
      (Role.keys .type ((Json.list (pre ++ j :: post) e).variant? g))[pre.length]? = some l →
      Role.slot? .type l = some σ → Keeps (σ.read .kept n j) (σ.read .kept n k)) :
    Keeps (TypeExpr.read g (n + 1) (.list (pre ++ j :: post) e))
      (TypeExpr.read g (n + 1) (.list (pre ++ k :: post) e)) := by
  intro t ht
  obtain ⟨x, rest, tag, hitems, variant, checked, ending, body⟩ := read_list_eq_ok.1 ht
  cases pre with
  | nil =>
    obtain ⟨rfl, rfl⟩ := List.cons.inj hitems
    exact absurd variant (TypeTag.read_container hj)
  | cons y pre =>
    obtain ⟨rfl, rfl⟩ := List.cons.inj hitems
    rw [List.cons_append, TypeTag.variant?_list variant, List.length_cons,
      tag.keys_getElem?] at hjk
    have replaced := hcheck () (checked j (List.mem_append_right _ List.mem_cons_self))
    refine read_list_eq_ok.2 ⟨y, pre ++ k :: post, tag, rfl, variant,
      Json.forall_mem_replace checked replaced, ending, keeps_readBody_item ?_ t body⟩
    refine (reads_record n tag).keeps_item hj hk ?_ post
    intro l σ hl hσ
    exact hjk (some l) σ (by rw [hl, Option.map_some]) hσ

theorem accepted_member {pre post : List Member} (hj : j.IsContainer) {a : TypeExpr}
    (ha : TypeExpr.read g (n + 1) (.object (pre ++ (key, j) :: post) e) = .ok a)
    {l : Option TypeKey} {σ : Slot}
    (hl : Role.keyOf? .type ((Json.object (pre ++ (key, j) :: post) e).variant? g) key = some l)
    (hσ : Role.slot? .type l = some σ) : ∃ b, σ.read .kept n j = .ok b := by
  obtain ⟨tag, members, ending, body⟩ := read_object_eq_ok.1 ha
  rw [TypeTag.variant?_object members, tag.keyOf?_eq (TypeTag.key_ne_type hj members),
    Option.map_eq_some_iff] at hl
  obtain ⟨l, hl, rfl⟩ := hl
  rw [readBody_eq_readRecord hl] at body
  exact (reads_record n tag).accepted_member hj body hl hσ

theorem accepted_item {pre post : List Json} (hj : j.IsContainer) {a : TypeExpr}
    (ha : TypeExpr.read g (n + 1) (.list (pre ++ j :: post) e) = .ok a)
    {l : Option TypeKey} {σ : Slot}
    (hl : (Role.keys .type ((Json.list (pre ++ j :: post) e).variant? g))[pre.length]? = some l)
    (hσ : Role.slot? .type l = some σ) : ∃ b, σ.read .kept n j = .ok b := by
  obtain ⟨x, rest, tag, hitems, variant, -, -, body⟩ := read_list_eq_ok.1 ha
  cases pre with
  | nil =>
    obtain ⟨rfl, rfl⟩ := List.cons.inj hitems
    exact absurd variant (TypeTag.read_container hj)
  | cons y pre =>
    obtain ⟨rfl, rfl⟩ := List.cons.inj hitems
    rw [List.cons_append, TypeTag.variant?_list variant, List.length_cons,
      tag.keys_getElem?, Option.map_eq_some_iff] at hl
    obtain ⟨l, hl, rfl⟩ := hl
    unfold readBody at body
    split at body
    · cases pre <;> cases body
    · exact (reads_record n tag).accepted_item hj body hl hσ

theorem keeps_perm {ms ns : List Member} (p : ms.Perm ns) :
    Keeps (TypeExpr.read g (n + 1) (.object ms e)) (TypeExpr.read g (n + 1) (.object ns e)) := by
  intro t ht
  obtain ⟨tag, members, ending, body⟩ := read_object_eq_ok.1 ht
  exact read_object_eq_ok.2 ⟨tag, TypeTag.keeps_readMembers_perm p none _ members, ending,
    keeps_readBody_object (Json.keeps_readRecord_perm p) t body⟩

theorem not_repeated {m m' : Member} {ms rest : List Member} {l : Option TypeKey}
    (p : ms.Perm (m :: m' :: rest))
    (hm : Role.keyOf? .type ((Json.object ms e).variant? g) m.1 = some l)
    (hm' : Role.keyOf? .type ((Json.object ms e).variant? g) m'.1 = some l) (a : TypeExpr) :
    TypeExpr.read g (n + 1) (.object ms e) ≠ .ok a := by
  intro ha
  obtain ⟨tag, members, ending, body⟩ := read_object_eq_ok.1 ha
  rw [TypeTag.variant?_object members] at hm hm'
  -- the variant given twice is found when it is looked for, a field when it is read
  cases l with
  | none =>
    have repeated := TypeTag.keeps_readMembers_perm p none _ members
    exact TypeTag.readMembers_repeated (TypeTag.keyOf?_eq_variant.1 hm)
      (TypeTag.keyOf?_eq_variant.1 hm') none _ repeated
  | some l =>
    rw [TypeTag.keyOf?_eq_field] at hm hm'
    rw [readBody_eq_readRecord hm] at body
    exact Json.readRecord_repeated p hm hm' a body

theorem keeps_ignored {name : String} {v : Json} {pre post : List Member}
    (hname : key.read = .ok name)
    (hother : Role.keyOf? .type ((Json.object (pre ++ post) e).variant? g) key = none)
    (hskip : v.skip = .ok ()) (hcheck : v.check n = .ok ()) :
    Keeps (TypeExpr.read g (n + 1) (.object (pre ++ post) e))
      (TypeExpr.read g (n + 1) (.object (pre ++ (key, v) :: post) e)) := by
  intro a ha
  obtain ⟨tag, members, ending, body⟩ := read_object_eq_ok.1 ha
  rw [TypeTag.variant?_object members] at hother
  have other : key.read.toOption ≠ some "type" := fun h =>
    nomatch hother.symm.trans (TypeTag.keyOf?_eq_variant.2 h)
  rw [tag.keyOf?_eq other, Option.map_eq_none_iff] at hother
  have nothing (t : Option TypeTag) : TypeTag.readMember g n t (key, v) = .ok t := by
    refine TypeTag.readMember_eq_ok.2 ⟨name, hname, .inr ⟨?_, hcheck, rfl⟩⟩
    rintro rfl
    exact other (by rw [hname]; rfl)
  rw [TypeTag.readMembers_eq_foldlM] at members
  refine read_object_eq_ok.2 ⟨tag, ?_, ending, keeps_readBody_object ?_ a body⟩
  · rw [TypeTag.readMembers_eq_foldlM, Json.foldlM_insert nothing, members]
  · rw [Json.readRecord_ignored hname hother hskip]
    exact Keeps.refl _

section Labelled

variable {items : List Json} {ns : List Member}

theorem readBody_list_eq_object {t : TypeTag} {key : Literal} {j : Json}
    (closed : ∀ b, e ≠ .broken b) (hkey : key.read.toOption = some "type")
    (hj : j.skip = .ok ()) (h : Labelled t.shape.fieldOf? t.keys items ns) :
    readBody n t (.list items e) = readBody n t (.object ((key, j) :: ns) e) := by
  unfold readBody
  split
  · subst t
    cases h
    rfl
  · have other : t.shape.fieldOf? key = none :=
      Option.eq_none_iff_forall_not_mem.2 fun l hl => TypeTag.field_ne_type hl hkey
    rw [Json.readRecord_list_eq_object closed h t.keys_nodup]
    exact (Json.readRecord_ignored (Json.toOption_eq_some.1 hkey) other hj [] ns).symm

theorem read_list_iff_object {v : Option TypeTag} (closed : ∀ b, e ≠ .broken b)
    (hv : (Json.list items e).variant? g = v)
    (h : Labelled (Role.keyOf? .type v) (Role.keys .type v) items ns) (a : TypeExpr) :
    TypeExpr.read g (n + 1) (.list items e) = .ok a ↔
      TypeExpr.read g (n + 1) (.object ns e) = .ok a := by
  have ending : e.check .decoding = .ok () := Ending.check_eq_ok.2 closed
  rw [read_list_eq_ok, read_object_eq_ok]
  cases v with
  | none =>
    cases h
    constructor
    · rintro ⟨j, rest, tag, hitems, -⟩
      exact nomatch hitems
    · rintro ⟨tag, members, -⟩
      exact nomatch members
  | some t =>
    cases h with
    | @cons _ _ j js key ms hkey rest =>
      have named := TypeTag.keyOf?_eq_variant.1 hkey
      have fields := TypeTag.labelled_fields rest
      have variant : TypeTag.read g j = .ok t := Json.toOption_eq_some.1 hv
      have body := readBody_list_eq_object (n := n) closed named
        (TypeTag.skip_of_read variant) fields
      have members (tag : TypeTag) :
          TypeTag.readMembers g n none ((key, j) :: ms) = .ok (some tag) ↔
            tag = t ∧ ∀ x ∈ js, x.check n = .ok () := by
        rw [← TypeTag.readMembers_fields (g := g) fields, TypeTag.readMembers,
          Json.toOption_eq_some.1 named]
        simp only [bind, Except.bind, if_true, variant]
      constructor
      · rintro ⟨_, _, tag, hitems, htag, checked, -, result⟩
        obtain ⟨rfl, rfl⟩ := List.cons.inj hitems
        obtain rfl := Except.ok.inj (variant.symm.trans htag)
        exact ⟨t, (members t).2 ⟨rfl, checked⟩, ending, body ▸ result⟩
      · rintro ⟨tag, hmembers, -, result⟩
        obtain ⟨rfl, checked⟩ := (members tag).1 hmembers
        exact ⟨j, js, tag, rfl, variant, checked, ending, body ▸ result⟩

end Labelled

theorem lawful (g : Regime) (n : Nat) : Role.Lawful .type g n where
  keeps_member hj hk hskip hcheck := TypeExpr.keeps_member hj hk hskip (hcheck rfl)
  keeps_item hj hk hcheck := TypeExpr.keeps_item hj hk (hcheck rfl)
  accepted_member hj ha hl := TypeExpr.accepted_member hj ha hl
  accepted_item hj ha hl := TypeExpr.accepted_item hj ha hl
  keeps_perm := TypeExpr.keeps_perm
  not_repeated := TypeExpr.not_repeated
  keeps_ignored hname hother hskip hcheck :=
    TypeExpr.keeps_ignored hname hother hskip (hcheck rfl)
  keeps_absent _ option := nomatch option
  list_iff_object closed labelled := TypeExpr.read_list_iff_object closed rfl labelled

end TypeExpr

theorem Role.lawful (ρ : Role) (g : Regime) (n : Nat) : ρ.Lawful g n := by
  cases ρ with
  | reflection =>
    exact (Reflection.reads_record g n).lawful (Reflection.read_succ g n) (fun _ => rfl)
      (fun _ => rfl) rfl
  | flags => exact (Flags.reads_record g n).lawful rfl (fun _ => rfl) (fun _ => rfl) rfl
  | comment => exact (Comment.reads_record g n).lawful rfl (fun _ => rfl) (fun _ => rfl) rfl
  | tag => exact (Tag.reads_record g n).lawful rfl (fun _ => rfl) (fun _ => rfl) rfl
  | source => exact (Source.reads_record g n).lawful rfl (fun _ => rfl) (fun _ => rfl) rfl
  | type => exact TypeExpr.lawful g n

end DocTree
