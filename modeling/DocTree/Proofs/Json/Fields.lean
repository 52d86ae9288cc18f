import DocTree.Proofs.Json.Members

/-!
# Where the fields of a record come from

The parts of a record are given for its fields, by their keys in an object and by their positions
in an array. When the record is read, every field that is given is read from the one part that is
given for it, and a field without a part keeps its default.
-/
namespace DocTree.Json

section

variable {α κ : Type} [DecidableEq κ] {τ : κ → Type} {g : Regime} {s : Shape κ}
  {read : (k : κ) → Json → Except Fault (τ k)} {build : Fields τ → Except Fault α} {e : Ending}

def Shape.given {κ : Type} (s : Shape κ) : Json → List (Option κ × Json)
  | .list items _ => items.mapIdx fun i j => (s.keys[i]?, j)
  | .object members _ => members.map fun m => (s.fieldOf? m.1, m.2)
  | _ => []

inductive Taken {α κ : Type} (read : Json → Except Fault α) (parts : List (Option κ × Json))
    (k : κ) : Option α → Option α → Prop
  | absent {o : Option α} :
      (∀ (i : Nat) (j : Json), parts[i]? ≠ some (some k, j)) → Taken read parts k o o
  | present {i : Nat} {j : Json} {a : α} :
      parts[i]? = some (some k, j) →
      (∀ (i' : Nat) (j' : Json), parts[i']? = some (some k, j') → i' = i) →
      read j = .ok a → Taken read parts k none (some a)

namespace Taken

variable {α κ : Type} {read : Json → Except Fault α} {parts : List (Option κ × Json)} {k : κ}
  {part : Option κ × Json} {j : Json} {o o' : Option α} {a : α}

theorem nil : Taken read [] k o o := .absent fun _ _ h => by cases h

theorem behind (other : part.1 ≠ some k) (h : Taken read parts k o o') :
    Taken read (part :: parts) k o o' := by
  have first (j : Json) : (part :: parts)[0]? ≠ some (some k, j) := by
    intro here
    exact other (congrArg Prod.fst (Option.some.inj here))
  cases h with
  | absent none =>
    refine .absent fun i j => ?_
    cases i with
    | zero => exact first j
    | succ i => exact none i j
  | @present i _ _ found only read =>
    refine @present _ _ _ _ _ (i + 1) _ _ found (fun i' j' h => ?_) read
    cases i' with
    | zero => exact absurd h (first j')
    | succ i' => exact congrArg (· + 1) (only i' j' h)

theorem here (hread : read j = .ok a) (h : Taken read parts k (some a) o') :
    Taken read ((some k, j) :: parts) k none o' := by
  cases h with
  | absent none =>
    refine @present _ _ _ _ _ 0 _ _ rfl (fun i' j' h => ?_) hread
    cases i' with
    | zero => rfl
    | succ i' => exact absurd h (none i' j')

end Taken

theorem taken_of_readMembers {ms : List Member} {f f' : Fields τ}
    (h : readMembers s read f ms = .ok f') (k : κ) :
    Taken (read k) (s.given (.object ms e)) k (f k) (f' k) := by
  rw [readMembers_eq_foldlM] at h
  induction ms generalizing f with
  | nil =>
    obtain rfl := Except.ok.inj h
    exact .nil
  | cons m ms ih =>
    rw [List.foldlM_cons, bind_eq_ok] at h
    obtain ⟨f₁, added, h⟩ := h
    have others := ih h
    rw [Shape.given, List.map_cons]
    by_cases same : s.fieldOf? m.1 = some k
    · obtain ⟨v, unread, hv, rfl⟩ := (readMember_eq_ok.1 added).given same
      rw [Fields.set_same] at others
      rw [unread, same]
      exact .here hv others
    · have kept : f₁ k = f k := by
        cases readMember_eq_ok.1 added with
        | ignored => rfl
        | @field _ _ _ l _ hname hfield =>
          have different : l ≠ k := by
            rintro rfl
            exact same (s.fieldOf?_eq_some.2 ⟨_, hname, hfield⟩)
          exact Fields.set_other different _
      rw [kept] at others
      exact .behind same others

theorem taken_of_readItems {ks : List κ} {items surplus : List Json} {i : Nat} {f f' : Fields τ}
    (h : readItems s read e ks i f items = .ok (f', surplus)) (distinct : ks.Nodup)
    (unread : ∀ k ∈ ks, f k = none) (k : κ) :
    Taken (read k) (items.mapIdx fun i j => (ks[i]?, j)) k (f k) (f' k) := by
  induction ks generalizing items i f with
  | nil =>
    obtain ⟨rfl, -⟩ := Prod.mk.inj (Except.ok.inj h)
    exact .absent fun i j found => by simp at found
  | cons l ks ih =>
    obtain ⟨hl, distinct⟩ := List.nodup_cons.1 distinct
    obtain ⟨first, rest⟩ := List.forall_mem_cons.1 unread
    cases items with
    | nil =>
      rw [readItems, bind_eq_ok, exists_unit_eq_ok] at h
      obtain ⟨-, h⟩ := h
      split at h
      · exact ih h distinct rest
      · cases h
    | cons x xs =>
      rw [readItems, bind_eq_ok] at h
      obtain ⟨v, hv, h⟩ := h
      have later : ∀ k ∈ ks, f.set l v k = none := by
        intro k hk
        have different : l ≠ k := by
          rintro rfl
          exact hl hk
        rw [Fields.set_other different, rest k hk]
      have others := ih h distinct later
      rw [List.mapIdx_cons]
      by_cases same : l = k
      · subst same
        rw [Fields.set_same] at others
        rw [first]
        exact .here hv others
      · rw [Fields.set_other same] at others
        exact .behind (fun h => same (Option.some.inj h)) others

/-- A record that is read is built from fields that are each read from the part given for them. -/
theorem taken_of_readRecord {j : Json} {a : α} (distinct : s.keys.Nodup)
    (h : readRecord g s (some read) build j = .ok a) :
    ∃ f : Fields τ, (∀ k, Taken (read k) (s.given j) k none (f k)) ∧ build f = .ok a := by
  cases j with
  | list items e =>
    obtain ⟨f, hf, built⟩ := bind_eq_ok.1 h
    obtain ⟨⟨f', surplus⟩, hitems, hf⟩ := bind_eq_ok.1 hf
    obtain ⟨u, -, hf⟩ := bind_eq_ok.1 hf
    obtain rfl := Except.ok.inj hf
    exact ⟨f', taken_of_readItems hitems distinct fun _ _ => rfl, built⟩
  | object members e =>
    obtain ⟨f, hf, built⟩ := bind_eq_ok.1 h
    obtain ⟨f', hmembers, hf⟩ := bind_eq_ok.1 hf
    obtain ⟨u, -, hf⟩ := bind_eq_ok.1 hf
    obtain rfl := Except.ok.inj hf
    exact ⟨f', taken_of_readMembers hmembers, built⟩
  | _ =>
    unfold readRecord at h
    exact absurd h (mismatch_ne_ok s.title _ a)

end

end DocTree.Json
