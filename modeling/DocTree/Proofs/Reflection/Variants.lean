import DocTree.Proofs.Reflection.Roles

/-!
# Reading the variants of a type

A type is accepted when it names one variant, every other part of it passes the check and
the fields of the variant are accepted. The member that names the variant is no field of
any variant, and no record stands in its place.
-/
namespace DocTree

open Json (Regime Fault Member Literal Ending Shape Keeps Labelled bind_eq_ok exists_unit_eq_ok
  readRecord)

def TypeExpr.readBody (n : Nat) (t : TypeTag) (body : Json) : Except Fault TypeExpr :=
  if t = .other then
    match body with
    | .list (x :: xs) _ => .error (.invalidLength (x :: xs).length "0 elements in sequence")
    | _ => return .other
  else readRecord .kept t.shape (some (readField n)) (ofFields t) body

def TypeTag.readMember (g : Regime) (n : Nat) (tag : Option TypeTag) (m : Member) :
    Except Fault (Option TypeTag) := do
  let name ← m.1.read
  if name = "type" then
    match tag with
    | some _ => .error (.duplicateField "type")
    | none => do
        let t ← TypeTag.read g m.2
        return some t
  else do
    m.2.check n
    return tag

theorem TypeTag.readMembers_eq_foldlM (g : Regime) (n : Nat) (tag : Option TypeTag)
    (ms : List Member) : TypeTag.readMembers g n tag ms = ms.foldlM (readMember g n) tag := by
  induction ms generalizing tag with
  | nil => rfl
  | cons m ms ih =>
    obtain ⟨key, j⟩ := m
    rw [List.foldlM_cons, TypeTag.readMembers.eq_def, readMember.eq_def, bind_assoc]
    apply bind_congr
    intro name
    dsimp only
    by_cases variant : name = "type"
    · rw [if_pos variant, if_pos variant]
      cases tag with
      | some _ => rfl
      | none =>
        simp only [bind_assoc, pure_bind]
        exact congrArg _ (funext fun t => ih (some t))
    · rw [if_neg variant, if_neg variant, bind_assoc]
      exact congrArg _ (funext fun _ => ih tag)

theorem TypeTag.readMember_eq_ok {g : Regime} {n : Nat} {tag tag' : Option TypeTag}
    {key : Literal} {j : Json} : readMember g n tag (key, j) = .ok tag' ↔
      ∃ name, key.read = .ok name ∧
        ((name = "type" ∧ tag = none ∧ ∃ t, TypeTag.read g j = .ok t ∧ tag' = some t) ∨
          (name ≠ "type" ∧ j.check n = .ok () ∧ tag' = tag)) := by
  rw [readMember.eq_def, bind_eq_ok]
  refine exists_congr fun name => and_congr_right fun _ => ?_
  dsimp only
  by_cases variant : name = "type"
  · simp only [variant, if_true, true_and, ne_eq, not_true_eq_false, false_and, or_false]
    cases tag with
    | some t => exact ⟨fun h => (nomatch h), fun h => (nomatch h.1)⟩
    | none =>
      rw [bind_eq_ok, eq_self, true_and]
      refine exists_congr fun t => and_congr_right fun _ => ?_
      exact ⟨fun h => (Except.ok.inj h).symm, fun h => congrArg _ h.symm⟩
  · simp only [variant, if_false, false_and, ne_eq, not_false_eq_true, true_and, false_or]
    rw [bind_eq_ok, exists_unit_eq_ok]
    exact and_congr_right fun _ => ⟨fun h => (Except.ok.inj h).symm, fun h => congrArg _ h.symm⟩

theorem TypeExpr.read_object_eq_ok {g : Regime} {n : Nat} {ms : List Member} {e : Ending}
    {t : TypeExpr} : TypeExpr.read g (n + 1) (.object ms e) = .ok t ↔
      ∃ tag, TypeTag.readMembers g n none ms = .ok (some tag) ∧ e.check .decoding = .ok () ∧
        readBody n tag (.object ms e) = .ok t := by
  have split : TypeExpr.read g (n + 1) (.object ms e) = (do
      let tag ← TypeTag.readMembers g n none ms
      e.check .decoding
      let tag ← Json.required "type" tag
      readBody n tag (.object ms e)) := by
    rw [read_succ]
    simp only [TypeTag.split, bind_assoc, pure_bind]
    rfl
  rw [split, bind_eq_ok]
  simp only [bind_eq_ok, exists_unit_eq_ok]
  constructor
  · rintro ⟨tag, members, ending, tag', required, body⟩
    cases tag with
    | none => cases required
    | some tag =>
      obtain rfl := Except.ok.inj required
      exact ⟨tag, members, ending, body⟩
  · rintro ⟨tag, members, ending, body⟩
    exact ⟨some tag, members, ending, tag, rfl, body⟩

theorem TypeExpr.read_list_eq_ok {g : Regime} {n : Nat} {js : List Json} {e : Ending}
    {t : TypeExpr} : TypeExpr.read g (n + 1) (.list js e) = .ok t ↔
      ∃ j rest tag, js = j :: rest ∧ TypeTag.read g j = .ok tag ∧
        (∀ x ∈ rest, x.check n = .ok ()) ∧ e.check .decoding = .ok () ∧
          readBody n tag (.list rest e) = .ok t := by
  cases js with
  | nil =>
    constructor
    · intro h
      rw [read_succ] at h
      obtain ⟨parts, h, -⟩ := bind_eq_ok.1 h
      rw [TypeTag.split, bind_eq_ok] at h
      obtain ⟨u, -, h⟩ := h
      cases h
    · rintro ⟨j, rest, tag, h, -⟩
      cases h
  | cons j rest =>
    have split : TypeExpr.read g (n + 1) (.list (j :: rest) e) = (do
        let tag ← TypeTag.read g j
        rest.forM (Json.check n)
        e.check .decoding
        readBody n tag (.list rest e)) := by
      rw [read_succ]
      simp only [TypeTag.split, bind_assoc, pure_bind]
      rfl
    rw [split, bind_eq_ok]
    simp only [bind_eq_ok, exists_unit_eq_ok, Json.forM_eq_ok]
    constructor
    · rintro ⟨tag, variant, items, ending, body⟩
      exact ⟨j, rest, tag, rfl, variant, items, ending, body⟩
    · rintro ⟨j', rest', tag, h, variant, items, ending, body⟩
      obtain ⟨rfl, rfl⟩ := List.cons.inj h
      exact ⟨tag, variant, items, ending, body⟩

theorem TypeTag.readMembers_tag {g : Regime} {n : Nat} {tag tag' : Option TypeTag}
    {ms : List Member} (e : Ending) (h : TypeTag.readMembers g n tag ms = .ok tag') :
    tag' = tag.or ((Json.object ms e).variant? g) := by
  rw [readMembers_eq_foldlM] at h
  induction ms generalizing tag with
  | nil =>
    obtain rfl := Except.ok.inj h
    exact (Option.or_none).symm
  | cons m ms ih =>
    obtain ⟨key, j⟩ := m
    rw [List.foldlM_cons, bind_eq_ok] at h
    obtain ⟨tag₁, first, rest⟩ := h
    rw [ih rest, Json.variant?, Json.variant?, List.findSome?_cons]
    obtain ⟨name, hname, ⟨rfl, rfl, t, ht, rfl⟩ | ⟨other, -, rfl⟩⟩ := readMember_eq_ok.1 first
    · simp [hname, ht, Except.toOption]
    · simp [hname, other, Except.toOption]

theorem TypeTag.variant?_object {g : Regime} {n : Nat} {t : TypeTag} {ms : List Member}
    (h : TypeTag.readMembers g n none ms = .ok (some t)) (e : Ending) :
    (Json.object ms e).variant? g = some t :=
  (readMembers_tag e h).symm

theorem TypeTag.variant?_list {g : Regime} {t : TypeTag} {j : Json}
    (h : TypeTag.read g j = .ok t) (js : List Json) (e : Ending) :
    (Json.list (j :: js) e).variant? g = some t := by
  rw [Json.variant?, h]
  rfl

theorem TypeTag.read_container {g : Regime} {j : Json} (hj : j.IsContainer) {t : TypeTag} :
    TypeTag.read g j ≠ .ok t := by
  intro h
  cases j with
  | list => exact nomatch h
  | object => exact nomatch h
  | _ => exact hj.elim

theorem TypeTag.key_ne_type {g : Regime} {n : Nat} {tag tag' : Option TypeTag}
    {pre post : List Member} {key : Literal} {j : Json} (hj : j.IsContainer)
    (h : TypeTag.readMembers g n tag (pre ++ (key, j) :: post) = .ok tag') :
    key.read.toOption ≠ some "type" := by
  rw [readMembers_eq_foldlM, List.foldlM_append, bind_eq_ok] at h
  obtain ⟨tag₁, -, h⟩ := h
  rw [List.foldlM_cons, bind_eq_ok] at h
  obtain ⟨tag₂, member, -⟩ := h
  obtain ⟨name, hname, ⟨-, -, t, ht, -⟩ | ⟨other, -⟩⟩ := readMember_eq_ok.1 member
  · exact absurd ht (read_container hj)
  · simpa [hname, Except.toOption] using other

theorem TypeTag.keeps_readMembers_replace {g : Regime} {n : Nat} {tag : Option TypeTag}
    {key : Literal} {j k : Json} (hj : j.IsContainer) (hcheck : Keeps (j.check n) (k.check n))
    (pre post : List Member) :
    Keeps (TypeTag.readMembers g n tag (pre ++ (key, j) :: post))
      (TypeTag.readMembers g n tag (pre ++ (key, k) :: post)) := by
  rw [readMembers_eq_foldlM, readMembers_eq_foldlM]
  refine Json.keeps_foldlM_replace (fun tag tag' h => ?_) pre post tag
  rw [readMember_eq_ok] at h ⊢
  obtain ⟨name, hname, ⟨-, -, t, ht, -⟩ | ⟨other, checked, rfl⟩⟩ := h
  · exact absurd ht (read_container hj)
  · exact ⟨name, hname, .inr ⟨other, hcheck () checked, rfl⟩⟩

theorem TypeTag.keeps_readMembers_perm {g : Regime} {n : Nat} {ms ns : List Member} (p : ms.Perm ns)
    (tag : Option TypeTag) :
    Keeps (TypeTag.readMembers g n tag ms) (TypeTag.readMembers g n tag ns) := by
  rw [readMembers_eq_foldlM, readMembers_eq_foldlM]
  refine Json.keeps_foldlM_perm (fun tag a b tag₂ h => ?_) p tag
  obtain ⟨tag₁, first, second⟩ := bind_eq_ok.1 h
  obtain ⟨name, hname, ⟨hvariant, rfl, t, ht, rfl⟩ | ⟨hother, hcheck, rfl⟩⟩ :=
    readMember_eq_ok.1 first
  · obtain ⟨name', hname', ⟨-, hnone, -⟩ | ⟨hother', hcheck', rfl⟩⟩ := readMember_eq_ok.1 second
    · exact nomatch hnone
    · exact bind_eq_ok.2 ⟨none, readMember_eq_ok.2 ⟨name', hname', .inr ⟨hother', hcheck', rfl⟩⟩,
        readMember_eq_ok.2 ⟨name, hname, .inl ⟨hvariant, rfl, t, ht, rfl⟩⟩⟩
  · exact bind_eq_ok.2 ⟨tag₂, second, readMember_eq_ok.2 ⟨name, hname, .inr ⟨hother, hcheck, rfl⟩⟩⟩

theorem TypeTag.readMembers_repeated {g : Regime} {n : Nat} {m m' : Member} {ms : List Member}
    (hm : m.1.read.toOption = some "type") (hm' : m'.1.read.toOption = some "type")
    (tag tag' : Option TypeTag) : TypeTag.readMembers g n tag (m :: m' :: ms) ≠ .ok tag' := by
  intro h
  rw [readMembers_eq_foldlM, List.foldlM_cons, bind_eq_ok] at h
  obtain ⟨tag₁, first, h⟩ := h
  rw [List.foldlM_cons, bind_eq_ok] at h
  obtain ⟨tag₂, second, -⟩ := h
  obtain ⟨name, hname, ⟨-, -, t, -, rfl⟩ | ⟨other, -⟩⟩ := readMember_eq_ok.1 first
  · obtain ⟨name', hname', ⟨-, hnone, -⟩ | ⟨other, -⟩⟩ := readMember_eq_ok.1 second
    · exact nomatch hnone
    · exact other (by simpa [hname', Except.toOption] using hm')
  · exact other (by simpa [hname, Except.toOption] using hm)

theorem TypeTag.field_ne_type {t : TypeTag} {key : Literal} {l : TypeKey}
    (h : t.shape.fieldOf? key = some l) : key.read.toOption ≠ some "type" := by
  obtain ⟨name, hname, hfield⟩ := Shape.fieldOf?_eq_some.1 h
  rw [hname]
  intro named
  obtain rfl := Option.some.inj named
  exact nomatch t.field_type.symm.trans hfield

theorem TypeTag.keyOf?_eq (t : TypeTag) {key : Literal} (hkey : key.read.toOption ≠ some "type") :
    Role.keyOf? .type (some t) key = (t.shape.fieldOf? key).map some := by
  simp only [Role.keyOf?, hkey, if_false, Option.bind_some]

theorem TypeTag.keyOf?_eq_variant {variant : Option TypeTag} {key : Literal} :
    Role.keyOf? .type variant key = some none ↔ key.read.toOption = some "type" := by
  by_cases h : key.read.toOption = some "type"
  · simp [Role.keyOf?, h]
  · cases variant <;> simp [Role.keyOf?, h]

theorem TypeTag.keyOf?_eq_field {t : TypeTag} {key : Literal} {l : TypeKey} :
    Role.keyOf? .type (some t) key = some (some l) ↔ t.shape.fieldOf? key = some l := by
  by_cases h : key.read.toOption = some "type"
  · rw [keyOf?_eq_variant.2 h]
    exact ⟨fun hl => (nomatch hl), fun hl => absurd h (field_ne_type hl)⟩
  · rw [t.keyOf?_eq h]
    simp

theorem TypeTag.keys_getElem? (t : TypeTag) (i : Nat) :
    (Role.keys .type (some t))[i + 1]? = (t.shape.keys[i]?).map some := by
  rw [Role.keys, List.getElem?_cons_succ, List.getElem?_map]
  rfl

theorem TypeTag.other_fieldless {l : TypeKey} {key : Literal}
    (h : TypeTag.other.shape.fieldOf? key = some l) : False := by
  obtain ⟨name, -, hfield⟩ := Shape.fieldOf?_eq_some.1 h
  exact nomatch hfield

theorem TypeTag.labelled_fields {items : List Json} {ns : List Member} {t : TypeTag}
    {ks : List TypeKey} (h : Labelled (Role.keyOf? .type (some t)) (ks.map some) items ns) :
    Labelled t.shape.fieldOf? ks items ns := by
  induction ks generalizing items ns with
  | nil =>
    cases h
    exact .nil
  | cons k ks ih =>
    cases h with
    | cons hkey rest => exact .cons (keyOf?_eq_field.1 hkey) (ih rest)

theorem TypeTag.skip_of_read {g : Regime} {j : Json} {t : TypeTag} (h : TypeTag.read g j = .ok t) :
    j.skip = .ok () := by
  cases j with
  | number => rfl
  | text s =>
    obtain ⟨name, hname, -⟩ := bind_eq_ok.1 h
    exact s.skip_of_read hname
  | _ => exact nomatch h

theorem TypeTag.readMembers_fields {g : Regime} {n : Nat} {items : List Json} {ns : List Member}
    {t tag : TypeTag} {ks : List TypeKey} (h : Labelled t.shape.fieldOf? ks items ns) :
    TypeTag.readMembers g n (some t) ns = .ok (some tag) ↔
      tag = t ∧ ∀ j ∈ items, j.check n = .ok () := by
  rw [readMembers_eq_foldlM]
  induction h with
  | nil => simp [pure, Except.pure, eq_comm]
  | @cons k ks j js key ms hkey _ ih =>
    obtain ⟨name, hname, -⟩ := Json.Shape.fieldOf?_eq_some.1 hkey
    have other : name ≠ "type" := by
      rintro rfl
      exact field_ne_type hkey (by rw [hname]; rfl)
    rw [List.foldlM_cons, bind_eq_ok, List.forall_mem_cons]
    constructor
    · rintro ⟨tag', first, rest⟩
      obtain ⟨name', hname', ⟨rfl, -⟩ | ⟨-, checked, rfl⟩⟩ := readMember_eq_ok.1 first
      · exact absurd (Except.ok.inj (hname.symm.trans hname')) other
      · obtain ⟨same, rest⟩ := ih.1 rest
        exact ⟨same, checked, rest⟩
    · rintro ⟨same, checked, rest⟩
      exact ⟨some t, readMember_eq_ok.2 ⟨name, hname, .inr ⟨other, checked, rfl⟩⟩,
        ih.2 ⟨same, rest⟩⟩

section Body

variable {n : Nat} {t : TypeTag} {e : Ending}

theorem TypeExpr.keeps_readBody_object {ms ns : List Member}
    (h : Keeps (readRecord .kept t.shape (some (readField n)) (ofFields t) (.object ms e))
      (readRecord .kept t.shape (some (readField n)) (ofFields t) (.object ns e))) :
    Keeps (readBody n t (.object ms e)) (readBody n t (.object ns e)) := by
  unfold readBody
  split
  · exact Keeps.refl _
  · exact h

theorem TypeExpr.keeps_readBody_item {pre post : List Json} {j k : Json}
    (h : Keeps (readRecord .kept t.shape (some (readField n)) (ofFields t)
        (.list (pre ++ j :: post) e))
      (readRecord .kept t.shape (some (readField n)) (ofFields t)
        (.list (pre ++ k :: post) e))) :
    Keeps (readBody n t (.list (pre ++ j :: post) e))
      (readBody n t (.list (pre ++ k :: post) e)) := by
  unfold readBody
  split
  · cases pre <;> exact Json.keeps_error _ _
  · exact h

theorem TypeExpr.readBody_eq_readRecord {key : Literal} {l : TypeKey}
    (h : t.shape.fieldOf? key = some l) (j : Json) :
    readBody n t j = readRecord .kept t.shape (some (readField n)) (ofFields t) j := by
  have named : t ≠ .other := by
    rintro rfl
    exact TypeTag.other_fieldless h
  unfold readBody
  exact if_neg named

end Body

end DocTree
