import DocTree.Proofs.Reflection.Laws

/-!
# Places in a graph

Every record of a graph stands at a place: the graph itself is one, and a record inside
another one stands in a field of it, alone or in a list. A record may be exchanged for
another value at any place. When the place accepts the new value wherever it accepts the
old one, with the same result, then so does the whole graph; and a graph is accepted only
when the records at all of its places are.
-/
namespace DocTree

open Json (Regime Member Literal Ending Keeps bind_eq_ok)

section Parts

variable {ρ : Role} {g : Regime} {key : Literal} {j : Json}

theorem Role.keyOf?_named {variant : Option TypeTag} {l : ρ.Key}
    (h : ρ.keyOf? variant key = some l) : ∃ name, key.read = .ok name := by
  cases hkey : key.read with
  | ok name => exact ⟨name, rfl⟩
  | error =>
    cases ρ <;> simp [Role.keyOf?, Json.Shape.fieldOf?, hkey, Except.toOption] at h

theorem Slot.read_zero {σ : Slot} (hj : j.IsContainer) : ∃ fault, σ.read g 0 j = .error fault := by
  cases j with
  | list | object =>
    cases σ with
    | one ρ => cases ρ <;> exact ⟨_, rfl⟩
    | many ρ => exact ⟨_, rfl⟩
  | _ => exact hj.elim

theorem Slot.keeps_zero {σ : Slot} (hj : j.IsContainer) (k : Json) :
    Keeps (σ.read g 0 j) (σ.read g 0 k) := by
  obtain ⟨fault, refused⟩ := σ.read_zero (g := g) hj
  rw [refused]
  exact Json.keeps_error fault _

theorem Json.keeps_check_zero (hj : j.IsContainer) (k : Json) :
    Keeps (j.check 0) (k.check 0) := by
  cases j with
  | list | object => exact keeps_error _ _
  | _ => exact hj.elim

end Parts

/-- Exchanges one record of a graph, itself or at any depth: `P` relates the old value to the new
one, given the role of the place, the way it is read and the levels that are left there. -/
inductive Alters (P : Role → Regime → Nat → Json → Json → Prop) :
    Slot → Regime → Nat → Json → Json → Prop
  | here {ρ : Role} {g : Regime} {n : Nat} {j k : Json} : P ρ g n j k → Alters P (.one ρ) g n j k
  | entry {ρ : Role} {g : Regime} {n : Nat} {j k : Json} {pre post : List Json} {e : Ending} :
      Alters P (.one ρ) g n j k →
      Alters P (.many ρ) g (n + 1) (.list (pre ++ j :: post) e) (.list (pre ++ k :: post) e)
  | member {ρ : Role} {g : Regime} {n : Nat} {j k : Json} {key : Literal} {pre post : List Member}
      {e : Ending} {l : ρ.Key} {σ : Slot} :
      ρ.keyOf? ((Json.object (pre ++ (key, j) :: post) e).variant? g) key = some l →
      ρ.slot? l = some σ → Alters P σ (ρ.inside g) n j k →
      Alters P (.one ρ) g (n + 1) (.object (pre ++ (key, j) :: post) e)
        (.object (pre ++ (key, k) :: post) e)
  | item {ρ : Role} {g : Regime} {n : Nat} {j k : Json} {pre post : List Json} {e : Ending}
      {l : ρ.Key} {σ : Slot} :
      (ρ.keys ((Json.list (pre ++ j :: post) e).variant? g))[pre.length]? = some l →
      ρ.slot? l = some σ → Alters P σ (ρ.inside g) n j k →
      Alters P (.one ρ) g (n + 1) (.list (pre ++ j :: post) e) (.list (pre ++ k :: post) e)

structure StandsFor (σ : Slot) (g : Regime) (n : Nat) (j k : Json) : Prop where
  old : j.IsContainer
  new : k.IsContainer
  read : Keeps (σ.read g n j) (σ.read g n k)
  check : g = .kept → Keeps (j.check n) (k.check n)

theorem StandsFor.zero {σ : Slot} {g : Regime} {j k : Json} (hj : j.IsContainer)
    (hk : k.IsContainer) : StandsFor σ g 0 j k :=
  ⟨hj, hk, Slot.keeps_zero hj k, fun _ => Json.keeps_check_zero hj k⟩

section Alters

variable {P : Role → Regime → Nat → Json → Json → Prop} {σ : Slot} {g : Regime} {n : Nat}
  {j k : Json}

theorem Slot.keeps_entry {ρ : Role} {pre post : List Json} {e : Ending}
    (h : Keeps (ρ.read g n j) (ρ.read g n k)) :
    Keeps ((Slot.many ρ).read g (n + 1) (.list (pre ++ j :: post) e))
      ((Slot.many ρ).read g (n + 1) (.list (pre ++ k :: post) e)) :=
  (Json.keeps_mapM_replace h pre post).bind fun _ => Keeps.refl _

theorem Role.inside_kept (ρ : Role) : ρ.inside .kept = .kept := by
  cases ρ <;> rfl

theorem Alters.standsFor (hP : ∀ ρ g n j k, P ρ g n j k → StandsFor (.one ρ) g n j k)
    (h : Alters P σ g n j k) : StandsFor σ g n j k := by
  -- inside a type the record around needs the check of the one inside, outside it does not
  induction h with
  | here h => exact hP _ _ _ _ _ h
  | entry _ ih =>
    exact ⟨trivial, trivial, Slot.keeps_entry ih.read,
      fun hg => Json.keeps_check_item (ih.check hg)⟩
  | @member ρ g n j k key pre post e l σ hl hσ _ ih =>
    refine ⟨trivial, trivial, (ρ.lawful g n).keeps_member ih.old ih.new ?_ ?_ ?_, ?_⟩
    · intro none
      exact nomatch hl.symm.trans none
    · rintro rfl
      exact ih.check rfl
    · intro l' σ' hl' hσ'
      obtain rfl := Option.some.inj (hl.symm.trans hl')
      obtain rfl := Option.some.inj (hσ.symm.trans hσ')
      exact ih.read
    · rintro rfl
      exact Json.keeps_check_member (ih.check ρ.inside_kept)
  | @item ρ g n j k pre post e l σ hl hσ _ ih =>
    refine ⟨trivial, trivial, (ρ.lawful g n).keeps_item ih.old ih.new ?_ ?_, ?_⟩
    · rintro rfl
      exact ih.check rfl
    · intro l' σ' hl' hσ'
      obtain rfl := Option.some.inj (hl.symm.trans hl')
      obtain rfl := Option.some.inj (hσ.symm.trans hσ')
      exact ih.read
    · rintro rfl
      exact Json.keeps_check_item (ih.check ρ.inside_kept)

theorem Alters.isContainer (hP : ∀ ρ g n j k, P ρ g n j k → j.IsContainer)
    (h : Alters P σ g n j k) : j.IsContainer := by
  cases h with
  | here h => exact hP _ _ _ _ _ h
  | _ => trivial

theorem Alters.accepted (hP : ∀ ρ g n j k, P ρ g n j k → j.IsContainer)
    (h : Alters P σ g n j k) {a : σ.Value} (ha : σ.read g n j = .ok a) :
    ∃ ρ g n j k, P ρ g n j k ∧ ∃ b, ρ.read g n j = .ok b := by
  induction h with
  | here h => exact ⟨_, _, _, _, _, h, a, ha⟩
  | entry _ ih =>
    obtain ⟨as, items, -⟩ := bind_eq_ok.1 ha
    rw [List.mapM_append, bind_eq_ok] at items
    obtain ⟨_, -, items⟩ := items
    rw [bind_eq_ok] at items
    obtain ⟨_, items, -⟩ := items
    rw [List.mapM_cons, bind_eq_ok] at items
    obtain ⟨b, hb, -⟩ := items
    exact ih hb
  | member hl hσ h ih =>
    obtain ⟨b, hb⟩ := (Role.lawful _ _ _).accepted_member (h.isContainer hP) ha hl hσ
    exact ih hb
  | item hl hσ h ih =>
    obtain ⟨b, hb⟩ := (Role.lawful _ _ _).accepted_item (h.isContainer hP) ha hl hσ
    exact ih hb

end Alters

/-- Some record of a graph, the graph itself or one at any depth, is as `Q` says. -/
def HasRecord (Q : Role → Regime → Json → Prop) (σ : Slot) (g : Regime) (n : Nat) (j : Json) :
    Prop :=
  Alters (fun ρ g _ x y => x = y ∧ Q ρ g x) σ g n j j

theorem HasRecord.refused {Q : Role → Regime → Json → Prop} {σ : Slot} {g : Regime} {n : Nat}
    {j : Json} (hQ : ∀ ρ g j, Q ρ g j → j.IsContainer)
    (refused : ∀ ρ g n j, Q ρ g j → ∀ a, ρ.read g n j ≠ .ok a) (h : HasRecord Q σ g n j)
    (a : σ.Value) : σ.read g n j ≠ .ok a := by
  intro ha
  obtain ⟨ρ, g, n, x, y, ⟨-, hx⟩, b, hb⟩ := Alters.accepted (fun ρ g _ x _ h => hQ ρ g x h.2) h ha
  exact refused ρ g n x hx b hb

end DocTree
