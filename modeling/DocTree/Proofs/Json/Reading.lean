import DocTree.Json.Record
import DocTree.Proofs.Json.Written

/-!
# Reading written values as typed data

A reader has to give the typed data back from the tree of the value that the data
was written as. Where the value is kept before it is read it is also checked, with
the levels that are left for it, so the two facts go together. A record is read
back when each of its members is, in whatever way its fields are given keys.
-/
namespace DocTree.Json

mutual

def Value.depth : Value → Nat
  | .boolean _ | .number _ | .text _ => 0
  | .list vs => itemsDepth vs + 1
  | .object ms => membersDepth ms + 1

def itemsDepth : List Value → Nat
  | [] => 0
  | v :: vs => max v.depth (itemsDepth vs)

def membersDepth : List (String × Value) → Nat
  | [] => 0
  | (_, v) :: ms => max v.depth (membersDepth ms)

end

theorem depth_lt_list {v : Value} {vs : List Value} (h : v ∈ vs) :
    v.depth < (Value.list vs).depth := by
  rw [Value.depth, Nat.lt_succ_iff]
  induction vs with
  | nil => exact absurd h List.not_mem_nil
  | cons w vs ih =>
    rw [itemsDepth]
    rcases List.mem_cons.1 h with rfl | h
    · exact Nat.le_max_left _ _
    · exact Nat.le_trans (ih h) (Nat.le_max_right _ _)

theorem depth_lt_object {key : String} {v : Value} {ms : List (String × Value)}
    (h : (key, v) ∈ ms) : v.depth < (Value.object ms).depth := by
  rw [Value.depth, Nat.lt_succ_iff]
  induction ms with
  | nil => exact absurd h List.not_mem_nil
  | cons m ms ih =>
    rw [membersDepth]
    rcases List.mem_cons.1 h with rfl | h
    · exact Nat.le_max_left _ _
    · exact Nat.le_trans (ih h) (Nat.le_max_right _ _)

theorem levels_of_object {ms : List (String × Value)} {n : Nat}
    (h : (Value.object ms).depth ≤ n) : ∃ m, n = m + 1 := by
  rw [Value.depth] at h
  exact ⟨n - 1, by omega⟩

/-- With `n` levels left the tree of a value passes the check, and a reader gives the data back
that the value stands for. -/
structure Reads {α : Type} (n : Nat) (read : Json → Except Fault α) (v : Value) (a : α) : Prop where
  check : v.tree.check n = .ok ()
  read : read v.tree = .ok a

theorem reads_text (n : Nat) (s : String) : Reads n readText (.text s) s := by
  constructor
  · rw [Value.tree, Json.check, read_ofText]
    rfl
  · exact read_ofText s

theorem reads_boolean (n : Nat) (b : Bool) : Reads n readBool (.boolean b) b := by
  constructor
  · rw [Value.tree, Json.check]
  · rfl

theorem readWord_of_value {n : Numeral} {i : Int} (h : n.value = .ok (.integer i))
    (hi : 0 ≤ i ∧ i < 0x100000000) : readWord (.number n) = .ok i.toNat.toUInt32 := by
  rw [readWord, h]
  exact if_pos hi

theorem reads_word (n : Nat) (w : UInt32) : Reads n readWord (.number w.toNat) w := by
  have small : w.toNat < 0x100000000 := w.toNat_lt
  have value : (Numeral.ofNat w.toNat).value = .ok (.integer w.toNat) :=
    value_ofNat (Nat.lt_trans small (by decide))
  constructor
  · rw [Value.tree, Json.check, value]
    rfl
  · have word := readWord_of_value value (by omega)
    rw [Int.toNat_natCast, Nat.toUInt32_eq, UInt32.ofNat_toNat] at word
    exact word

theorem Reads.map {α β : Type} {n : Nat} {read : Json → Except Fault α} {v : Value} {a : α}
    (h : Reads n read v a) (f : α → β) : Reads n (fun j => (read j).map f) v (f a) := by
  refine ⟨h.check, ?_⟩
  simp only [h.read]
  rfl

theorem Reads.option {α : Type} {n : Nat} {read : Json → Except Fault α} {v : Value} {a : α}
    (h : Reads n read v a) : Reads n (readOption read) v (some a) := by
  refine ⟨h.check, ?_⟩
  have present : readOption read v.tree = (read v.tree).map some := by cases v <;> rfl
  rw [present, h.read]
  rfl

theorem reads_list {α : Type} {n : Nat} {read : Json → Except Fault α} {encode : α → Value}
    {as : List α} (h : ∀ a ∈ as, Reads n read (encode a) a) :
    Reads (n + 1) (readList (some read)) (.list (as.map encode)) as := by
  have items : (itemTrees (as.map encode)).forM (Json.check n) = .ok () ∧
      (itemTrees (as.map encode)).mapM read = .ok as := by
    induction as with
    | nil => exact ⟨rfl, rfl⟩
    | cons a as ih =>
      obtain ⟨checked, done⟩ := ih fun b hb => h b (List.mem_cons_of_mem _ hb)
      have first := h a List.mem_cons_self
      constructor
      · rw [List.map_cons, itemTrees]
        exact (congrArg (· >>= _) first.check).trans checked
      · rw [List.map_cons, itemTrees, List.mapM_cons, first.read, done]
        rfl
  constructor
  · rw [Value.tree, Json.check, items.1]
    rfl
  · rw [Value.tree, readList, items.2]
    rfl

inductive ReadsField {α : Type} (n : Nat) (read : Json → Except Fault α) :
    Option Value → Option α → Prop
  | absent : ReadsField n read none none
  | present {v : Value} {a : α} : Reads n read v a → ReadsField n read (some v) (some a)

theorem ReadsField.check {α : Type} {n : Nat} {read : Json → Except Fault α} {o : Option Value}
    {a : Option α} (h : ReadsField n read o a) {v : Value} (hv : o = some v) :
    v.tree.check n = .ok () := by
  cases h with
  | absent => exact nomatch hv
  | present h =>
    obtain rfl := Option.some.inj hv
    exact h.check

theorem readsField_map {α : Type} {n : Nat} {read : Json → Except Fault α} {encode : α → Value}
    {o : Option α} (h : ∀ a, o = some a → Reads n read (encode a) a) :
    ReadsField n read (o.map encode) o := by
  cases o with
  | none => exact .absent
  | some a => exact .present (h a rfl)

theorem readsField_option {α : Type} {n : Nat} {read : Json → Except Fault α}
    {encode : α → Value} {o : Option α} (h : ∀ a, o = some a → Reads n read (encode a) a) :
    ReadsField n (readOption read) (o.map encode) (o.map some) := by
  cases o with
  | none => exact .absent
  | some a => exact .present (h a rfl).option

def membersOf {κ : Type} (label : κ → String) (value : κ → Option Value) (ks : List κ) :
    List (String × Value) :=
  ks.flatMap fun k => (value k).toList.map (label k, ·)

theorem depth_le_of_member {κ : Type} {label : κ → String} {value : κ → Option Value}
    {ks : List κ} {n : Nat} (h : (Value.object (membersOf label value ks)).depth ≤ n + 1) {k : κ}
    (hk : k ∈ ks) {v : Value} (hv : value k = some v) : v.depth ≤ n := by
  have member : (label k, v) ∈ membersOf label value ks := by
    refine List.mem_flatMap.2 ⟨k, hk, ?_⟩
    rw [hv]
    exact List.mem_cons_self
  exact Nat.le_of_lt_succ (Nat.lt_of_lt_of_le (depth_lt_object member) h)

theorem check_of_member {κ : Type} {τ : κ → Type} {read : (k : κ) → Json → Except Fault (τ k)}
    {label : κ → String} {n : Nat} {value : κ → Option Value} {fields : Fields τ} {ks : List κ}
    (hread : ∀ k ∈ ks, ReadsField n (read k) (value k) (fields k)) {key : String} {v : Value}
    (h : (key, v) ∈ membersOf label value ks) :
    ∃ k, key = label k ∧ v.tree.check n = .ok () := by
  obtain ⟨k, hk, hmem⟩ := List.mem_flatMap.1 h
  obtain ⟨w, hw, heq⟩ := List.mem_map.1 hmem
  obtain ⟨rfl, rfl⟩ := Prod.mk.inj heq
  exact ⟨k, rfl, (hread k hk).check (Option.mem_toList.1 hw)⟩

theorem check_object {n : Nat} {ms : List (String × Value)}
    (h : ∀ key v, (key, v) ∈ ms → v.tree.check n = .ok ()) :
    (Value.object ms).tree.check (n + 1) = .ok () := by
  have members : (memberTrees ms).forM (fun (key, j) => do
      let _ ← key.read
      Json.check n j) = .ok () := by
    induction ms with
    | nil => rfl
    | cons m ms ih =>
      obtain ⟨key, v⟩ := m
      have first : (do
          let _ ← (Literal.ofText key).read
          Json.check n v.tree) = .ok () := by
        rw [read_ofText, h key v List.mem_cons_self]
        rfl
      rw [memberTrees]
      refine (congrArg (· >>= _) first).trans (ih fun key w hw => ?_)
      exact h key w (List.mem_cons_of_mem _ hw)
  rw [Value.tree, Json.check, members]
  rfl

section Record

variable {κ : Type} [DecidableEq κ] {τ : κ → Type} (s : Shape κ)
  {read : (k : κ) → Json → Except Fault (τ k)} {label : κ → String}

theorem readMembers_field {f : Fields τ} {k : κ} {key : String} {v : Value} {a : τ k}
    (hkey : s.field? key = some k) (hf : f k = none) (hread : read k v.tree = .ok a)
    (ms : List Member) :
    readMembers s read f ((Literal.ofText key, v.tree) :: ms) =
      readMembers s read (f.set k a) ms := by
  rw [readMembers, read_ofText]
  simp only [bind, Except.bind, hkey, hf, hread, Option.isSome_none, Bool.false_eq_true, if_false]

theorem readMembers_other {f : Fields τ} {key : String} (hkey : s.field? key = none) (t : String)
    (ms : List Member) :
    readMembers s read f ((Literal.ofText key, (Value.text t).tree) :: ms) =
      readMembers s read f ms := by
  have skipped : (Value.text t).tree.skip = .ok () := by
    rw [Value.tree, Json.skip]
    rfl
  rw [readMembers, read_ofText]
  simp only [bind, Except.bind, hkey, skipped]

theorem readMembers_membersOf {n : Nat} {value : κ → Option Value} {fields : Fields τ}
    {ks : List κ} (hread : ∀ k ∈ ks, ReadsField n (read k) (value k) (fields k))
    (hkey : ∀ k ∈ ks, s.field? (label k) = some k) (hks : ks.Nodup) (f : Fields τ)
    (hf : ∀ k ∈ ks, f k = none) :
    readMembers s read f (memberTrees (membersOf label value ks)) =
      .ok fun k => if k ∈ ks then fields k else f k := by
  induction ks generalizing f with
  | nil =>
    simp only [List.not_mem_nil, if_false]
    rfl
  | cons k ks ih =>
    obtain ⟨hk, hks⟩ := List.nodup_cons.1 hks
    have ih := ih (fun l hl => hread l (List.mem_cons_of_mem _ hl))
      (fun l hl => hkey l (List.mem_cons_of_mem _ hl)) hks
    have step := hread k List.mem_cons_self
    rw [membersOf, List.flatMap_cons]
    revert step
    generalize hv : value k = v
    generalize ha : fields k = a
    intro step
    cases step with
    | absent =>
      refine (ih f fun l hl => hf l (List.mem_cons_of_mem _ hl)).trans (congrArg _ ?_)
      funext l
      by_cases hl : l = k
      · subst hl
        simp [hk, ha, hf l List.mem_cons_self]
      · simp [hl]
    | @present v a hva =>
      have first := readMembers_field s (hkey k List.mem_cons_self) (hf k List.mem_cons_self)
        hva.read (memberTrees (membersOf label value ks))
      refine first.trans ((ih (f.set k a) fun l hl => ?_).trans (congrArg _ ?_))
      · have hne : k ≠ l := fun h => hk (h ▸ hl)
        simp [Fields.set, hne, hf l (List.mem_cons_of_mem _ hl)]
      · funext l
        by_cases hl : l = k
        · subst hl
          simp [hk, ha, Fields.set]
        · simp [hl, Fields.set, Ne.symm hl]

theorem reads_record {α : Type} {n : Nat} {g : Regime} {value : κ → Option Value}
    (fields : Fields τ) {build : Fields τ → Except Fault α} {a : α}
    (hread : ∀ k, ReadsField n (read k) (value k) (fields k))
    (hkey : ∀ k, s.field? (label k) = some k) (hall : ∀ k, k ∈ s.keys) (hkeys : s.keys.Nodup)
    (hbuild : build fields = .ok a) :
    Reads (n + 1) (readRecord g s (some read) build)
      (.object (membersOf label value s.keys)) a := by
  constructor
  · apply check_object
    intro key v hm
    obtain ⟨k, -, checked⟩ := check_of_member (fun k _ => hread k) hm
    exact checked
  · have members := readMembers_membersOf s (fun k _ => hread k) (fun k _ => hkey k) hkeys
      Fields.none fun k _ => rfl
    simp only [hall, if_true] at members
    simp only [Value.tree, readRecord, readObjectForm, members, bind, Except.bind]
    exact hbuild

end Record

end DocTree.Json
