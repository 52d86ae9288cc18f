import DocTree.Proofs.Json.Members

/-!
# How deep a value nests

The levels of a value are counted along its parts, the items of a list and the values of an
object. What passes the check nests no deeper than the levels left, and passes it with any
levels that suffice. The readers of the fields of a record may be exchanged for others that
agree with them on the parts of the value at hand, and every field given was read by its own.
-/
namespace DocTree.Json

mutual

def depth : Json → Nat
  | .list items _ => depthOfItems items + 1
  | .object members _ => depthOfMembers members + 1
  | _ => 0

def depthOfItems : List Json → Nat
  | [] => 0
  | j :: js => max (depth j) (depthOfItems js)

def depthOfMembers : List (Literal × Json) → Nat
  | [] => 0
  | (_, j) :: ms => max (depth j) (depthOfMembers ms)

end

def parts : Json → List Json
  | .list items _ => items
  | .object members _ => members.map Prod.snd
  | _ => []

theorem depthOfItems_le {js : List Json} {n : Nat} :
    depthOfItems js ≤ n ↔ ∀ j ∈ js, j.depth ≤ n := by
  induction js with
  | nil => simp [depthOfItems]
  | cons j js ih => rw [depthOfItems, Nat.max_le, ih, List.forall_mem_cons]

theorem depthOfMembers_le {ms : List Member} {n : Nat} :
    depthOfMembers ms ≤ n ↔ ∀ m ∈ ms, m.2.depth ≤ n := by
  induction ms with
  | nil => simp [depthOfMembers]
  | cons m ms ih => rw [depthOfMembers, Nat.max_le, ih, List.forall_mem_cons]

theorem depth_le_succ {j : Json} {n : Nat} : j.depth ≤ n + 1 ↔ ∀ x ∈ j.parts, x.depth ≤ n := by
  cases j with
  | list items e => rw [depth, Nat.succ_le_succ_iff, depthOfItems_le, parts]
  | object members e =>
    rw [depth, Nat.succ_le_succ_iff, depthOfMembers_le, parts, List.forall_mem_map]
  | _ => simp [depth, parts]

theorem check_of_depth_le : ∀ {n m : Nat} {j : Json}, j.check n = .ok () → j.depth ≤ m →
    j.check m = .ok ()
  | _, 0, .list _ _, _, hm => absurd hm (Nat.not_succ_le_zero _)
  | _, 0, .object _ _, _, hm => absurd hm (Nat.not_succ_le_zero _)
  | 0, _, .list _ _, h, _ => by cases h
  | 0, _, .object _ _, h, _ => by cases h
  | n + 1, m + 1, .list items e, h, hm => by
      obtain ⟨checked, ending⟩ := check_list_eq_ok.1 h
      refine check_list_eq_ok.2 ⟨fun x hx => ?_, ending⟩
      exact check_of_depth_le (checked x hx) (depth_le_succ.1 hm x hx)
  | n + 1, m + 1, .object members e, h, hm => by
      obtain ⟨checked, ending⟩ := check_object_eq_ok.1 h
      refine check_object_eq_ok.2 ⟨fun x hx => ⟨(checked x hx).1, ?_⟩, ending⟩
      exact check_of_depth_le (checked x hx).2
        (depth_le_succ.1 hm x.2 (List.mem_map_of_mem hx))
  | n, m, .null, _, _ => by rw [check]
  | n, m, .boolean _, _, _ => by rw [check]
  | n, m, .number d, h, _ => by rw [check] at h ⊢; exact h
  | n, m, .text t, h, _ => by rw [check] at h ⊢; exact h
  | n, m, .broken b, h, _ => by rw [check] at h; cases h

section Record

variable {α κ : Type} [DecidableEq κ] {τ : κ → Type} {g : Regime} {s : Shape κ}
  {read read' : (k : κ) → Json → Except Fault (τ k)} {build : Fields τ → Except Fault α}
  {e : Ending} {j : Json}

theorem keeps_readMember {m : Member} (h : ∀ k, Keeps (read k m.2) (read' k m.2))
    (f : Fields τ) : Keeps (readMember s read f m) (readMember s read' f m) := by
  intro f' hf'
  refine readMember_eq_ok.2 ?_
  cases readMember_eq_ok.1 hf' with
  | ignored hname hother hskip => exact .ignored hname hother hskip
  | field hname hfield unread hv => exact .field hname hfield unread (h _ _ hv)

theorem keeps_readItems {ks : List κ} {items : List Json}
    (h : ∀ x ∈ items, ∀ k, Keeps (read k x) (read' k x)) (i : Nat) (f : Fields τ) :
    Keeps (readItems s read e ks i f items) (readItems s read' e ks i f items) := by
  induction ks generalizing items i f with
  | nil => exact Keeps.refl _
  | cons k ks ih =>
    cases items with
    | nil =>
      rw [readItems, readItems]
      refine (Keeps.refl _).bind fun _ => ?_
      split
      · exact ih h (i + 1) f
      · exact Keeps.refl _
    | cons x xs =>
      obtain ⟨first, others⟩ := List.forall_mem_cons.1 h
      rw [readItems, readItems]
      exact (first k).bind fun v => ih others (i + 1) (f.set k v)

theorem keeps_readRecord (h : ∀ x ∈ j.parts, ∀ k, Keeps (read k x) (read' k x)) :
    Keeps (readRecord g s (some read) build j) (readRecord g s (some read') build j) := by
  cases j with
  | list items e =>
    have items_kept : Keeps (readItems s read e s.keys 0 Fields.none items)
        (readItems s read' e s.keys 0 Fields.none items) := keeps_readItems h 0 _
    exact (items_kept.bind fun _ => Keeps.refl _).bind fun _ => Keeps.refl _
  | object members e =>
    refine Keeps.bind (Keeps.bind ?_ fun _ => Keeps.refl _) fun _ => Keeps.refl _
    rw [readMembers_eq_foldlM, readMembers_eq_foldlM]
    exact keeps_foldlM (fun m hm => keeps_readMember (h m.2 (List.mem_map_of_mem hm))) _
  | _ => exact Keeps.refl _

def Fields.ReadBy (read : (k : κ) → Json → Except Fault (τ k)) (f : Fields τ) : Prop :=
  ∀ k v, f k = some v → ∃ x, read k x = .ok v

omit [DecidableEq κ] in
theorem Fields.ReadBy.none : (Fields.none : Fields τ).ReadBy read := fun _ _ h => nomatch h

theorem Fields.ReadBy.set {f : Fields τ} (h : f.ReadBy read) {k : κ} {v : τ k} {x : Json}
    (hv : read k x = .ok v) : (f.set k v).ReadBy read := by
  intro l w hw
  by_cases same : k = l
  · subst same
    rw [Fields.set_same] at hw
    exact ⟨x, Option.some.inj hw ▸ hv⟩
  · rw [Fields.set_other same] at hw
    exact h l w hw

theorem Fields.ReadBy.readItems {ks : List κ} {items surplus : List Json} {i : Nat}
    {f f' : Fields τ} (h : f.ReadBy read)
    (hitems : readItems s read e ks i f items = .ok (f', surplus)) : f'.ReadBy read := by
  induction ks generalizing items i f with
  | nil =>
    obtain ⟨rfl, -⟩ := Prod.mk.inj (Except.ok.inj hitems)
    exact h
  | cons k ks ih =>
    cases items with
    | nil =>
      rw [Json.readItems, bind_eq_ok, exists_unit_eq_ok] at hitems
      obtain ⟨-, hitems⟩ := hitems
      split at hitems
      · exact ih h hitems
      · cases hitems
    | cons x xs =>
      rw [Json.readItems, bind_eq_ok] at hitems
      obtain ⟨v, hv, hitems⟩ := hitems
      exact ih (h.set hv) hitems

theorem readBy_of_readRecord {a : α} (h : readRecord g s (some read) build j = .ok a) :
    ∃ f : Fields τ, f.ReadBy read ∧ build f = .ok a := by
  cases j with
  | list items e =>
    obtain ⟨f, hf, built⟩ := bind_eq_ok.1 h
    obtain ⟨⟨f', surplus⟩, hitems, hf⟩ := bind_eq_ok.1 hf
    obtain ⟨u, -, hf⟩ := bind_eq_ok.1 hf
    obtain rfl := Except.ok.inj hf
    exact ⟨f', Fields.ReadBy.none.readItems hitems, built⟩
  | object members e =>
    obtain ⟨f, hf, built⟩ := bind_eq_ok.1 h
    obtain ⟨f', hmembers, hf⟩ := bind_eq_ok.1 hf
    obtain ⟨u, -, hf⟩ := bind_eq_ok.1 hf
    obtain rfl := Except.ok.inj hf
    rw [readMembers_eq_foldlM] at hmembers
    refine ⟨f', foldlM_invariant (fun f m f' hf hm => ?_) Fields.ReadBy.none hmembers, built⟩
    cases readMember_eq_ok.1 hm with
    | ignored => exact hf
    | field _ _ _ hv => exact hf.set hv
  | _ =>
    unfold readRecord at h
    exact absurd h (mismatch_ne_ok s.title _ a)

end Record

end DocTree.Json
