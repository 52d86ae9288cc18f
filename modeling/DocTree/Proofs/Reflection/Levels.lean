import DocTree.Proofs.Json.Nesting
import DocTree.Proofs.Reflection.Variants

/-!
# The levels that reading needs

How many levels are left is of no account to a value that nests no deeper: the readers of all
records accept it alike. For types there is one law about the levels and the way the variant
is read together, since both matter only where the parts of the value are read and checked.
-/
namespace DocTree

open Json (Regime Fault Member Ending Shape Fields Keeps bind_eq_ok exists_unit_eq_ok readRecord
  readOption readList depth_le_succ keeps_error)

section Containers

variable {α κ : Type} [DecidableEq κ] {τ : κ → Type} {g : Regime} {s : Shape κ}
  {read : Option ((k : κ) → Json → Except Fault (τ k))} {build : Fields τ → Except Fault α}
  {j : Json} {n : Nat}

theorem isContainer_of_readRecord {a : α} (h : readRecord g s read build j = .ok a) :
    j.IsContainer := by
  cases j with
  | list | object => trivial
  | _ =>
    unfold readRecord at h
    exact absurd h (Json.mismatch_ne_ok s.title _ a)

theorem Json.exists_level (hj : j.IsContainer) (h : j.depth ≤ n) : ∃ m, n = m + 1 := by
  cases n with
  | zero =>
    cases j with
    | list | object => exact absurd h (Nat.not_succ_le_zero _)
    | _ => exact hj.elim
  | succ m => exact ⟨m, rfl⟩

theorem tooDeep_ne_ok (expected : String) (j : Json) (a : α) :
    (tooDeep expected j : Except Fault α) ≠ .ok a := by
  intro h
  cases j with
  | list | object => cases h
  | _ =>
    unfold tooDeep at h
    exact Json.mismatch_ne_ok expected _ a h

theorem Flags.read_eq (g : Regime) (n : Nat) : Flags.read g n =
    readRecord g shape (below (fun _ _ => readOption Json.readBool) n) ofFields := by
  cases n <;> rfl

theorem Reflection.read_eq (g : Regime) (n : Nat) :
    Reflection.read g n = readRecord g shape (below (readField g) n) ofFields := by
  cases n with
  | zero =>
    funext j
    cases j <;> rfl
  | succ n => exact read_succ g n

theorem Reflection.isContainer_of_read {r : Reflection} (h : Reflection.read g n j = .ok r) :
    j.IsContainer := by
  rw [read_eq] at h
  exact isContainer_of_readRecord h

theorem TypeExpr.isContainer_of_read {t : TypeExpr} (h : TypeExpr.read g n j = .ok t) :
    j.IsContainer := by
  cases n with
  | zero => exact absurd h (tooDeep_ne_ok _ j t)
  | succ n =>
    rw [read_succ] at h
    obtain ⟨parts, h, -⟩ := bind_eq_ok.1 h
    cases j with
    | list | object => trivial
    | _ =>
      unfold TypeTag.split at h
      exact absurd h (Json.mismatch_ne_ok "internally tagged enum TypeRef" _ parts)

end Containers

theorem readOption_eq_some {α : Type} {read : Json → Except Fault α} {j : Json} {a : α} :
    readOption read j = .ok (some a) ↔ j ≠ .null ∧ read j = .ok a := by
  cases j <;> simp [readOption]

/-- What is accepted with `n` levels left is accepted with any number of levels that suffices. -/
def Levelled {α : Type} (read : Nat → Json → Except Fault α) (n : Nat) : Prop :=
  ∀ m j, j.depth ≤ m → Keeps (read n j) (read m j)

section Levelled

variable {α : Type} {read : Nat → Json → Except Fault α} {n : Nat}

theorem levelled_const (read : Json → Except Fault α) : Levelled (fun _ => read) n :=
  fun _ _ _ => Keeps.refl _

theorem Levelled.option (h : Levelled read n) : Levelled (fun n => readOption (read n)) n := by
  intro m j hm
  cases j with
  | null => exact Keeps.refl _
  | _ => exact (h m _ hm).map some

theorem levelled_list (h : ∀ k < n, Levelled read k) :
    Levelled (fun n => readList (below read n)) n := by
  intro m j hm
  cases j with
  | list items e =>
    cases n with
    | zero => exact keeps_error _ _
    | succ n =>
      cases m with
      | zero => exact absurd hm (Nat.not_succ_le_zero _)
      | succ m =>
        have items_kept : Keeps (items.mapM (read n)) (items.mapM (read m)) :=
          Json.keeps_mapM fun x hx =>
            h n (Nat.lt_succ_self n) m x (depth_le_succ.1 hm x hx)
        exact items_kept.bind fun _ => Keeps.refl _
  | _ => exact Keeps.refl _

theorem levelled_record {κ : Type} [DecidableEq κ] {τ : κ → Type} (g : Regime) (s : Shape κ)
    {read : Nat → (k : κ) → Json → Except Fault (τ k)} (build : Fields τ → Except Fault α)
    (h : ∀ m < n, ∀ k, Levelled (fun n => read n k) m) :
    Levelled (fun n => readRecord g s (below read n) build) n := by
  intro m j hm a ha
  have container := isContainer_of_readRecord ha
  obtain ⟨m, rfl⟩ := Json.exists_level container hm
  cases n with
  | zero =>
    cases j with
    | list | object => cases ha
    | _ => exact container.elim
  | succ n =>
    refine Json.keeps_readRecord (fun x hx k => ?_) a ha
    exact h n (Nat.lt_succ_self n) k m x (depth_le_succ.1 hm x hx)

end Levelled

theorem Flags.levelled (g : Regime) (n : Nat) : Levelled (Flags.read g) n := by
  rw [show Flags.read g = _ from funext (Flags.read_eq g)]
  exact levelled_record g _ _ fun _ _ _ => levelled_const _

theorem Tag.levelled (g : Regime) (n : Nat) : Levelled (Tag.read g) n := by
  have record (n : Nat) : Tag.read g n =
      readRecord g shape (below (fun _ _ => Json.readText) n) ofFields := by
    cases n <;> rfl
  rw [show Tag.read g = _ from funext record]
  exact levelled_record g _ _ fun _ _ _ => levelled_const _

theorem Comment.levelled (g : Regime) (n : Nat) : Levelled (Comment.read g) n := by
  refine levelled_record g _ _ fun m _ k => ?_
  cases k with
  | shortText | text => exact levelled_const _
  | tags => exact levelled_list fun m _ => Tag.levelled g m

theorem Source.levelled (g : Regime) (n : Nat) : Levelled (Source.read g) n :=
  levelled_record g _ _ fun _ _ _ => levelled_const _

def Json.tag? : Json → Option Json
  | .list (j :: _) _ => some j
  | .object ms _ => (ms.find? fun m => m.1.read.toOption == some "type").map Prod.snd
  | _ => none

section Types

variable {g g' : Regime} {n m : Nat} {ms : List Member} {e : Ending}

theorem TypeTag.keeps_readMember {tag : Option TypeTag} {x : Member}
    (htag : x.1.read = .ok "type" → tag = none → Keeps (TypeTag.read g x.2) (TypeTag.read g' x.2))
    (hcheck : Keeps (x.2.check n) (x.2.check m)) :
    Keeps (readMember g n tag x) (readMember g' m tag x) := by
  intro tag' h
  obtain ⟨name, hname, cases⟩ := readMember_eq_ok.1 h
  refine readMember_eq_ok.2 ⟨name, hname, ?_⟩
  obtain ⟨rfl, none, t, ht, htag'⟩ | ⟨other, checked, same⟩ := cases
  · exact .inl ⟨rfl, none, t, htag hname none t ht, htag'⟩
  · exact .inr ⟨other, hcheck () checked, same⟩

theorem Json.tag?_here {x : Member} (variant : x.1.read = .ok "type") :
    (Json.object (x :: ms) e).tag? = some x.2 := by
  simp [tag?, variant, Except.toOption]

theorem Json.tag?_behind {x : Member} {name : String} (hname : x.1.read = .ok name)
    (other : name ≠ "type") : (Json.object (x :: ms) e).tag? = (Json.object ms e).tag? := by
  simp [tag?, hname, Except.toOption, other]

theorem TypeTag.keeps_readMembers {tag : Option TypeTag}
    (htag : tag = none → ∀ x, (Json.object ms e).tag? = some x →
      Keeps (TypeTag.read g x) (TypeTag.read g' x))
    (hcheck : ∀ x ∈ ms, Keeps (x.2.check n) (x.2.check m)) :
    Keeps (readMembers g n tag ms) (readMembers g' m tag ms) := by
  rw [readMembers_eq_foldlM, readMembers_eq_foldlM]
  induction ms generalizing tag with
  | nil => exact Keeps.refl _
  | cons x ms ih =>
    obtain ⟨first, others⟩ := List.forall_mem_cons.1 hcheck
    rw [List.foldlM_cons, List.foldlM_cons]
    intro result h
    obtain ⟨tag', hx, h⟩ := bind_eq_ok.1 h
    refine bind_eq_ok.2 ⟨tag', keeps_readMember ?_ first _ hx, ih ?_ others _ h⟩
    · intro variant none
      exact htag none _ (Json.tag?_here variant)
    · -- a variant not found yet is looked for among the members behind
      rintro rfl y hy
      obtain ⟨name, hname, ⟨-, -, t, -, found⟩ | ⟨other, -, same⟩⟩ := readMember_eq_ok.1 hx
      · cases found
      · exact htag same.symm y ((Json.tag?_behind hname other).trans hy)

theorem TypeExpr.keeps_readBody {t : TypeTag} {j : Json}
    (h : ∀ x ∈ j.parts, ∀ k, Keeps (readField n k x) (readField m k x)) :
    Keeps (readBody n t j) (readBody m t j) := by
  unfold readBody
  split
  · exact Keeps.refl _
  · exact Json.keeps_readRecord h

theorem TypeExpr.keeps_read {j : Json}
    (htag : ∀ x, j.tag? = some x → Keeps (TypeTag.read g x) (TypeTag.read g' x))
    (hcheck : ∀ x ∈ j.parts, Keeps (x.check n) (x.check m))
    (hfield : ∀ x ∈ j.parts, ∀ k, Keeps (readField n k x) (readField m k x)) :
    Keeps (TypeExpr.read g (n + 1) j) (TypeExpr.read g' (m + 1) j) := by
  intro t ht
  have container := isContainer_of_read ht
  cases j with
  | list items e =>
    obtain ⟨x, rest, tag, rfl, hx, checked, ending, body⟩ := read_list_eq_ok.1 ht
    obtain ⟨-, hcheck⟩ := List.forall_mem_cons.1 hcheck
    obtain ⟨-, hfield⟩ := List.forall_mem_cons.1 hfield
    exact read_list_eq_ok.2 ⟨x, rest, tag, rfl, htag x rfl tag hx,
      fun y hy => hcheck y hy () (checked y hy), ending,
      keeps_readBody (j := .list rest e) hfield t body⟩
  | object ms e =>
    obtain ⟨tag, members, ending, body⟩ := read_object_eq_ok.1 ht
    have checks : ∀ x ∈ ms, Keeps (x.2.check n) (x.2.check m) :=
      fun x hx => hcheck x.2 (List.mem_map_of_mem hx)
    exact read_object_eq_ok.2 ⟨tag, TypeTag.keeps_readMembers (fun _ => htag) checks _ members,
      ending, keeps_readBody hfield t body⟩
  | _ => exact container.elim

theorem TypeTag.check_of_read {j : Json} {t : TypeTag} (h : TypeTag.read g j = .ok t) :
    j.check n = .ok () := by
  cases j with
  | text s =>
    obtain ⟨name, hname, -⟩ := bind_eq_ok.1 h
    rw [Json.check, hname]
    rfl
  | number d =>
    obtain ⟨v, hv, -⟩ := bind_eq_ok.1 h
    rw [Json.check, hv]
    rfl
  | _ =>
    unfold TypeTag.read at h
    exact absurd h (Json.mismatch_ne_ok _ _ t)

theorem TypeTag.check_of_readMembers {tag tag' : Option TypeTag}
    (h : TypeTag.readMembers g n tag ms = .ok tag') :
    ∀ x ∈ ms, (∃ name, x.1.read = .ok name) ∧ x.2.check n = .ok () := by
  rw [readMembers_eq_foldlM] at h
  induction ms generalizing tag with
  | nil => exact fun x hx => absurd hx List.not_mem_nil
  | cons x ms ih =>
    rw [List.foldlM_cons, bind_eq_ok] at h
    obtain ⟨tag₁, hx, h⟩ := h
    refine List.forall_mem_cons.2 ⟨?_, ih h⟩
    obtain ⟨name, hname, ⟨-, -, t, ht, -⟩ | ⟨-, checked, -⟩⟩ := readMember_eq_ok.1 hx
    · exact ⟨⟨name, hname⟩, check_of_read ht⟩
    · exact ⟨⟨name, hname⟩, checked⟩

theorem TypeExpr.check_of_read {j : Json} {t : TypeExpr} (h : TypeExpr.read g n j = .ok t) :
    j.check n = .ok () := by
  have container := isContainer_of_read h
  cases n with
  | zero => exact absurd h (tooDeep_ne_ok _ j t)
  | succ n =>
    cases j with
    | list items e =>
      obtain ⟨x, rest, tag, rfl, hx, checked, ending, -⟩ := read_list_eq_ok.1 h
      exact Json.check_list_eq_ok.2
        ⟨List.forall_mem_cons.2 ⟨TypeTag.check_of_read hx, checked⟩, ending⟩
    | object ms e =>
      obtain ⟨tag, members, ending, -⟩ := read_object_eq_ok.1 h
      exact Json.check_object_eq_ok.2 ⟨TypeTag.check_of_readMembers members, ending⟩
    | _ => exact container.elim

end Types

theorem readers_levelled (n : Nat) : (∀ g, Levelled (Reflection.read g) n) ∧
    (∀ g, Levelled (TypeExpr.read g) n) := by
  induction n using Nat.strongRecOn with
  | ind n ih =>
    refine ⟨fun g => ?_, fun g => ?_⟩
    · rw [show Reflection.read g = _ from funext (Reflection.read_eq g)]
      refine levelled_record g _ _ fun m hm k => ?_
      cases k with
      | name | kind => exact levelled_const _
      | defaultValue => exact levelled_const _
      | flags => exact (Flags.levelled g m).option
      | comment => exact (Comment.levelled g m).option
      | type => exact ((ih m hm).2 g).option
      | sources => exact levelled_list fun l _ => Source.levelled g l
      | signatures | parameters | children | typeParameters =>
        simp only [Reflection.readField, Reflection.readAll_eq]
        exact levelled_list fun l hl => (ih l (Nat.lt_trans hl hm)).1 g
    · intro m j hm t ht
      obtain ⟨m, rfl⟩ := Json.exists_level (TypeExpr.isContainer_of_read ht) hm
      cases n with
      | zero => exact absurd ht (tooDeep_ne_ok _ j t)
      | succ n =>
        have parts := depth_le_succ.1 hm
        have nested := ih n (Nat.lt_succ_self n)
        refine TypeExpr.keeps_read (fun _ _ => Keeps.refl _)
          (fun x hx _ h => Json.check_of_depth_le h (parts x hx)) (fun x hx k => ?_) t ht
        cases k with
        | name | value | operator => exact Keeps.refl _
        | typeArguments | types | elements =>
          simp only [TypeExpr.readField, TypeExpr.readAll_eq]
          refine levelled_list (fun l hl => ?_) m x (parts x hx)
          exact (ih l (Nat.lt_trans hl (Nat.lt_succ_self n))).2 .kept
        | elementType | target => exact nested.2 .kept m x (parts x hx)
        | declaration => exact nested.1 .kept m x (parts x hx)

end DocTree
