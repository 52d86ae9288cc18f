import DocTree.Proofs.Json.Acceptance

/-!
# The members of a record

The members of an object may change places, because each of them sets a field of its own
or none. A member that stands for no field may be put anywhere, and so may one whose value
means that its field is missing. Instead of an object that gives all fields there may be
an array of their values.
-/
namespace DocTree.Json

variable {α : Type}

def Shape.fieldOf? {κ : Type} (s : Shape κ) (key : Literal) : Option κ :=
  key.read.toOption.bind s.field?

theorem Shape.fieldOf?_eq_some {κ : Type} {s : Shape κ} {key : Literal} {k : κ} :
    s.fieldOf? key = some k ↔ ∃ name, key.read = .ok name ∧ s.field? name = some k := by
  unfold fieldOf?
  cases key.read <;> simp [Except.toOption]

section Record

variable {κ : Type} [DecidableEq κ] {τ : κ → Type}

theorem Fields.set_comm {f : Fields τ} {k l : κ} (h : k ≠ l) (v : τ k) (w : τ l) :
    (f.set k v).set l w = (f.set l w).set k v := by
  funext m
  by_cases hk : k = m
  · subst hk
    simp [Fields.set, h.symm]
  · by_cases hl : l = m <;> simp [Fields.set, hk, hl]

theorem Fields.set_same {f : Fields τ} (k : κ) (v : τ k) : f.set k v k = some v := by
  simp [Fields.set]

theorem Fields.set_other {f : Fields τ} {k l : κ} (h : k ≠ l) (v : τ k) : f.set k v l = f l := by
  simp [Fields.set, h]

variable (s : Shape κ) (read : (k : κ) → Json → Except Fault (τ k))

def readMember (f : Fields τ) (m : Member) : Except Fault (Fields τ) := do
  let name ← m.1.read
  match s.field? name with
  | none => do
      m.2.skip
      return f
  | some k =>
      if (f k).isSome then .error (.duplicateField (s.name k))
      else do
        let v ← read k m.2
        return f.set k v

theorem readMembers_eq_foldlM (f : Fields τ) (ms : List Member) :
    readMembers s read f ms = ms.foldlM (readMember s read) f := by
  induction ms generalizing f with
  | nil => rfl
  | cons m ms ih =>
    obtain ⟨key, j⟩ := m
    rw [List.foldlM_cons, readMembers, readMember, bind_assoc]
    congr 1
    funext name
    cases s.field? name with
    | none =>
      simp only [bind_assoc, pure_bind]
      exact congrArg _ (funext fun _ => ih f)
    | some k =>
      dsimp only
      by_cases given : (f k).isSome = true
      · rw [if_pos given, if_pos given]
        rfl
      · rw [if_neg given, if_neg given, bind_assoc]
        exact congrArg _ (funext fun v => ih (f.set k v))

/-- What reading a member does when it succeeds: one that stands for no field is passed over, the
value of any other is read and kept. -/
inductive Adds (f : Fields τ) : Member → Fields τ → Prop
  | ignored {key : Literal} {j : Json} {name : String} :
      key.read = .ok name → s.field? name = none → j.skip = .ok () → Adds f (key, j) f
  | field {key : Literal} {j : Json} {name : String} {k : κ} {v : τ k} :
      key.read = .ok name → s.field? name = some k → f k = none → read k j = .ok v →
      Adds f (key, j) (f.set k v)

variable {s read}

theorem readMember_eq_ok {f f' : Fields τ} {m : Member} :
    readMember s read f m = .ok f' ↔ Adds s read f m f' := by
  obtain ⟨key, j⟩ := m
  constructor
  · intro h
    obtain ⟨name, hname, h⟩ := bind_eq_ok.1 h
    cases hfield : s.field? name with
    | none =>
      simp only [hfield, bind_eq_ok, exists_unit_eq_ok] at h
      obtain ⟨hskip, h⟩ := h
      obtain rfl := Except.ok.inj h
      exact .ignored hname hfield hskip
    | some k =>
      cases hf : f k with
      | some v =>
        simp only [hfield, hf, Option.isSome_some, if_true] at h
        cases h
      | none =>
        simp only [hfield, hf, Option.isSome_none, Bool.false_eq_true, if_false, bind_eq_ok] at h
        obtain ⟨v, hv, h⟩ := h
        obtain rfl := Except.ok.inj h
        exact .field hname hfield hf hv
  · intro h
    cases h with
    | ignored hname hfield hskip =>
      simp only [readMember, hname, hfield, hskip, bind, Except.bind]
      rfl
    | field hname hfield hf hv =>
      simp only [readMember, hname, hfield, hf, hv, bind, Except.bind, Option.isSome_none,
        Bool.false_eq_true, if_false]
      rfl

theorem Adds.given {f f' : Fields τ} {m : Member} (h : Adds s read f m f') {k : κ}
    (hk : s.fieldOf? m.1 = some k) : ∃ v, f k = none ∧ read k m.2 = .ok v ∧ f' = f.set k v := by
  obtain ⟨name, hname, hfield⟩ := s.fieldOf?_eq_some.1 hk
  cases h with
  | ignored hname' hother _ =>
    obtain rfl := Except.ok.inj (hname.symm.trans hname')
    exact nomatch hfield.symm.trans hother
  | field hname' hfield' hf hv =>
    obtain rfl := Except.ok.inj (hname.symm.trans hname')
    obtain rfl := Option.some.inj (hfield.symm.trans hfield')
    exact ⟨_, hf, hv, rfl⟩

theorem Adds.swap {f f₁ f₂ : Fields τ} {a b : Member} (ha : Adds s read f a f₁)
    (hb : Adds s read f₁ b f₂) : ∃ f', Adds s read f b f' ∧ Adds s read f' a f₂ := by
  cases ha with
  | ignored hname hfield hskip => exact ⟨f₂, hb, .ignored hname hfield hskip⟩
  | @field _ _ _ k v hname hfield hf hv =>
    cases hb with
    | ignored hname' hfield' hskip =>
      exact ⟨f, .ignored hname' hfield' hskip, .field hname hfield hf hv⟩
    | @field _ _ _ l w hname' hfield' hf' hw =>
      -- a field that was given before is refused, so the two fields differ
      have different : k ≠ l := by
        rintro rfl
        rw [Fields.set_same] at hf'
        exact nomatch hf'
      rw [Fields.set_other different] at hf'
      refine ⟨f.set l w, .field hname' hfield' hf' hw, ?_⟩
      rw [Fields.set_comm different]
      exact .field hname hfield (by rw [Fields.set_other different.symm, hf]) hv

theorem keeps_readMembers_perm {ms ns : List Member} (p : ms.Perm ns) (f : Fields τ) :
    Keeps (readMembers s read f ms) (readMembers s read f ns) := by
  rw [readMembers_eq_foldlM, readMembers_eq_foldlM]
  refine keeps_foldlM_perm (fun f a b f₂ h => ?_) p f
  obtain ⟨f₁, ha, hb⟩ := bind_eq_ok.1 h
  obtain ⟨f', hb, ha⟩ := (readMember_eq_ok.1 ha).swap (readMember_eq_ok.1 hb)
  exact bind_eq_ok.2 ⟨f', readMember_eq_ok.2 hb, readMember_eq_ok.2 ha⟩

theorem keeps_readMembers_replace {key : Literal} {j j' : Json}
    (hother : s.fieldOf? key = none → Keeps j.skip j'.skip)
    (hfield : ∀ k, s.fieldOf? key = some k → Keeps (read k j) (read k j'))
    (pre post : List Member) (f : Fields τ) :
    Keeps (readMembers s read f (pre ++ (key, j) :: post))
      (readMembers s read f (pre ++ (key, j') :: post)) := by
  rw [readMembers_eq_foldlM, readMembers_eq_foldlM]
  refine keeps_foldlM_replace (fun f f' h => ?_) pre post f
  rw [readMember_eq_ok] at h ⊢
  cases h with
  | ignored hname hnone hskip =>
    have other : s.fieldOf? key = none := by simp [Shape.fieldOf?, hname, hnone, Except.toOption]
    exact .ignored hname hnone (hother other () hskip)
  | field hname hsome hf hv =>
    have given := s.fieldOf?_eq_some.2 ⟨_, hname, hsome⟩
    exact .field hname hsome hf (hfield _ given _ hv)

theorem readMembers_unread {k : κ} {ms : List Member} (h : ∀ m ∈ ms, s.fieldOf? m.1 ≠ some k)
    {f f' : Fields τ} (hread : readMembers s read f ms = .ok f') : f' k = f k := by
  rw [readMembers_eq_foldlM] at hread
  induction ms generalizing f with
  | nil =>
    obtain rfl := Except.ok.inj hread
    rfl
  | cons m ms ih =>
    rw [List.foldlM_cons, bind_eq_ok] at hread
    obtain ⟨f₁, hm, hms⟩ := hread
    obtain ⟨first, rest⟩ := List.forall_mem_cons.1 h
    rw [ih rest hms]
    cases readMember_eq_ok.1 hm with
    | ignored => rfl
    | @field _ _ _ l _ hname hfield =>
      have other : l ≠ k := by
        rintro rfl
        exact first (s.fieldOf?_eq_some.2 ⟨_, hname, hfield⟩)
      exact Fields.set_other other _

theorem keeps_readItems_replace {e : Ending} {j j' : Json} {pre : List Json} (post : List Json)
    {ks : List κ} (hlen : pre.length < ks.length)
    (h : ∀ k, ks[pre.length]? = some k → Keeps (read k j) (read k j')) (i : Nat) (f : Fields τ) :
    Keeps (readItems s read e ks i f (pre ++ j :: post))
      (readItems s read e ks i f (pre ++ j' :: post)) := by
  induction pre generalizing ks i f with
  | nil =>
    obtain ⟨k, ks, rfl⟩ := List.exists_cons_of_length_pos hlen
    exact (h k rfl).bind fun v => Keeps.refl _
  | cons x pre ih =>
    obtain ⟨k, ks, rfl⟩ := List.exists_cons_of_length_pos (Nat.zero_lt_of_lt hlen)
    apply (Keeps.refl (read k x)).bind
    intro v
    exact ih (Nat.lt_of_succ_lt_succ hlen) h (i + 1) (f.set k v)

theorem readItems_surplus {e : Ending} {ks : List κ} {i : Nat} {f f' : Fields τ}
    {items surplus : List Json} (h : readItems s read e ks i f items = .ok (f', surplus)) :
    surplus = items.drop ks.length := by
  induction ks generalizing items i f with
  | nil => exact (congrArg Prod.snd (Except.ok.inj h)).symm
  | cons k ks ih =>
    cases items with
    | nil =>
      rw [readItems, bind_eq_ok, exists_unit_eq_ok] at h
      obtain ⟨-, h⟩ := h
      split at h
      · rw [ih h]
        simp
      · exact nomatch h
    | cons j js =>
      rw [readItems, bind_eq_ok] at h
      obtain ⟨v, -, h⟩ := h
      exact ih h

theorem finish_eq_ok {g : Regime} {wanted total : Nat} {surplus : List Json} {e : Ending}
    (h : g.finish wanted total surplus e = .ok ()) : surplus = [] := by
  cases surplus with
  | nil => rfl
  | cons => cases g <;> exact nomatch h

theorem readArrayForm_length {g : Regime} {items : List Json} {e : Ending} {f : Fields τ}
    (h : readArrayForm g s read items e = .ok f) : items.length ≤ s.keys.length := by
  obtain ⟨⟨f', surplus⟩, hitems, h⟩ := bind_eq_ok.1 h
  obtain ⟨u, hfinish, -⟩ := bind_eq_ok.1 h
  have nothing := finish_eq_ok hfinish
  rw [readItems_surplus hitems] at nothing
  exact List.drop_eq_nil_iff.1 nothing

theorem keeps_readArrayForm_replace {g : Regime} {e : Ending} {j j' : Json} {pre : List Json}
    (post : List Json)
    (h : ∀ k, s.keys[pre.length]? = some k → Keeps (read k j) (read k j')) :
    Keeps (readArrayForm g s read (pre ++ j :: post) e)
      (readArrayForm g s read (pre ++ j' :: post) e) := by
  intro f hf
  -- items beyond the last field are refused, so the item exchanged stands for a field
  have within := readArrayForm_length hf
  simp only [List.length_append, List.length_cons] at within
  refine Keeps.bind (keeps_readItems_replace post (by omega) h 0 _) (fun done => ?_) f hf
  simp only [List.length_append, List.length_cons]
  exact Keeps.refl _

inductive Labelled (fieldOf? : Literal → Option κ) : List κ → List Json → List Member → Prop
  | nil : Labelled fieldOf? [] [] []
  | cons {k : κ} {ks : List κ} {j : Json} {js : List Json} {key : Literal} {ms : List Member} :
      fieldOf? key = some k → Labelled fieldOf? ks js ms →
      Labelled fieldOf? (k :: ks) (j :: js) ((key, j) :: ms)

theorem readItems_eq_readMembers {e : Ending} {ks : List κ} {items : List Json} {ms : List Member}
    (h : Labelled s.fieldOf? ks items ms) (distinct : ks.Nodup) (i : Nat) (f : Fields τ)
    (hf : ∀ k ∈ ks, f k = none) :
    readItems s read e ks i f items = (readMembers s read f ms).map (·, []) := by
  induction h generalizing i f with
  | nil => rfl
  | @cons k ks j js key ms hkey _ ih =>
    obtain ⟨hk, distinct⟩ := List.nodup_cons.1 distinct
    obtain ⟨first, rest⟩ := List.forall_mem_cons.1 hf
    have later (v : τ k) : ∀ l ∈ ks, f.set k v l = none := by
      intro l hl
      have other : k ≠ l := by
        rintro rfl
        exact hk hl
      rw [Fields.set_other other, rest l hl]
    obtain ⟨name, hname, hfield⟩ := s.fieldOf?_eq_some.1 hkey
    rw [readItems, readMembers, hname]
    simp only [bind, Except.bind, hfield, first, Option.isSome_none, Bool.false_eq_true, if_false]
    cases read k j with
    | error fault => rfl
    | ok v => exact ih distinct (i + 1) (f.set k v) (later v)

theorem readArrayForm_eq_readObjectForm (g : Regime) {e : Ending} (closed : ∀ b, e ≠ .broken b)
    {items : List Json} {ms : List Member} (h : Labelled s.fieldOf? s.keys items ms)
    (distinct : s.keys.Nodup) :
    readArrayForm g s read items e = readObjectForm s read ms e := by
  have ends (stance : Stance) : e.check stance = .ok () := Ending.check_eq_ok.2 closed
  rw [readArrayForm, readObjectForm,
    readItems_eq_readMembers h distinct 0 Fields.none fun k _ => rfl, ends]
  cases readMembers s read Fields.none ms with
  | error fault => rfl
  | ok f =>
    cases g with
    | direct =>
      simp only [Except.map, bind, Except.bind, Regime.finish, ends]
    | kept => rfl

section

variable {g : Regime} {build : Fields τ → Except Fault α} {e : Ending} {key : Literal}
  {j j' : Json}

theorem keeps_readRecord_perm {ms ns : List Member} (p : ms.Perm ns) :
    Keeps (readRecord g s (some read) build (.object ms e))
      (readRecord g s (some read) build (.object ns e)) := by
  have members : Keeps (readMembers s read Fields.none ms) (readMembers s read Fields.none ns) :=
    keeps_readMembers_perm p Fields.none
  have fields := members.bind fun f => Keeps.refl (e.check .decoding >>= fun _ => pure f)
  exact fields.bind fun f => Keeps.refl (build f)

theorem keeps_readRecord_member (hother : s.fieldOf? key = none → Keeps j.skip j'.skip)
    (hfield : ∀ k, s.fieldOf? key = some k → Keeps (read k j) (read k j'))
    (pre post : List Member) :
    Keeps (readRecord g s (some read) build (.object (pre ++ (key, j) :: post) e))
      (readRecord g s (some read) build (.object (pre ++ (key, j') :: post) e)) := by
  have members := (keeps_readMembers_replace hother hfield pre post Fields.none).bind fun f =>
    Keeps.refl (e.check .decoding >>= fun _ => pure f)
  exact members.bind fun f => Keeps.refl (build f)

theorem keeps_readRecord_item {pre : List Json}
    (h : ∀ k, s.keys[pre.length]? = some k → Keeps (read k j) (read k j')) (post : List Json) :
    Keeps (readRecord g s (some read) build (.list (pre ++ j :: post) e))
      (readRecord g s (some read) build (.list (pre ++ j' :: post) e)) :=
  (keeps_readArrayForm_replace post h).bind fun f => Keeps.refl (build f)

theorem readRecord_member {pre post : List Member} {a : α} {k : κ}
    (h : readRecord g s (some read) build (.object (pre ++ (key, j) :: post) e) = .ok a)
    (hkey : s.fieldOf? key = some k) : ∃ v, read k j = .ok v := by
  obtain ⟨f, hf, -⟩ := bind_eq_ok.1 h
  obtain ⟨f, members, -⟩ := bind_eq_ok.1 hf
  rw [readMembers_eq_foldlM, List.foldlM_append, bind_eq_ok] at members
  obtain ⟨f₁, -, members⟩ := members
  rw [List.foldlM_cons, bind_eq_ok] at members
  obtain ⟨f₂, added, -⟩ := members
  obtain ⟨v, -, hv, -⟩ := (readMember_eq_ok.1 added).given hkey
  exact ⟨v, hv⟩

theorem readRecord_repeated {m m' : Member} {ms rest : List Member} (p : ms.Perm (m :: m' :: rest))
    {k : κ} (hm : s.fieldOf? m.1 = some k) (hm' : s.fieldOf? m'.1 = some k) (a : α) :
    readRecord g s (some read) build (.object ms e) ≠ .ok a := by
  intro h
  have h := keeps_readRecord_perm p a h
  obtain ⟨f, hf, -⟩ := bind_eq_ok.1 h
  obtain ⟨f, members, -⟩ := bind_eq_ok.1 hf
  rw [readMembers_eq_foldlM, List.foldlM_cons, bind_eq_ok] at members
  obtain ⟨f₁, first, members⟩ := members
  rw [List.foldlM_cons, bind_eq_ok] at members
  obtain ⟨f₂, second, -⟩ := members
  obtain ⟨v, -, -, rfl⟩ := (readMember_eq_ok.1 first).given hm
  obtain ⟨w, unread, -⟩ := (readMember_eq_ok.1 second).given hm'
  rw [Fields.set_same] at unread
  exact nomatch unread

theorem readItems_item {ks : List κ} {k : κ} {pre post : List Json} {i : Nat} {f : Fields τ}
    {done : Fields τ × List Json} (h : readItems s read e ks i f (pre ++ j :: post) = .ok done)
    (hk : ks[pre.length]? = some k) : ∃ v, read k j = .ok v := by
  induction pre generalizing ks i f with
  | nil =>
    cases ks with
    | nil => exact nomatch hk
    | cons l ks =>
      obtain rfl := Option.some.inj hk
      obtain ⟨v, hv, -⟩ := bind_eq_ok.1 h
      exact ⟨v, hv⟩
  | cons x pre ih =>
    cases ks with
    | nil => exact nomatch hk
    | cons l ks =>
      obtain ⟨v, -, h⟩ := bind_eq_ok.1 h
      exact ih h hk

theorem readRecord_item {pre post : List Json} {a : α} {k : κ}
    (h : readRecord g s (some read) build (.list (pre ++ j :: post) e) = .ok a)
    (hk : s.keys[pre.length]? = some k) : ∃ v, read k j = .ok v := by
  obtain ⟨f, hf, -⟩ := bind_eq_ok.1 h
  obtain ⟨done, items, -⟩ := bind_eq_ok.1 hf
  exact readItems_item items hk

theorem readRecord_ignored {name : String} (hname : key.read = .ok name)
    (hother : s.fieldOf? key = none) (hskip : j.skip = .ok ()) (pre post : List Member) :
    readRecord g s (some read) build (.object (pre ++ (key, j) :: post) e) =
      readRecord g s (some read) build (.object (pre ++ post) e) := by
  have none : s.field? name = none := by simpa [Shape.fieldOf?, hname, Except.toOption] using hother
  have nothing (f : Fields τ) : readMember s read f (key, j) = .ok f :=
    readMember_eq_ok.2 (.ignored hname none hskip)
  simp only [readRecord, readObjectForm, readMembers_eq_foldlM, foldlM_insert nothing]

theorem keeps_readRecord_absent {k : κ} {v : τ k} (hkey : s.fieldOf? key = some k)
    (hv : read k j = .ok v) (hbuild : ∀ f, f k = none → build (f.set k v) = build f)
    {pre post : List Member} (missing : ∀ m ∈ pre ++ post, s.fieldOf? m.1 ≠ some k) :
    Keeps (readRecord g s (some read) build (.object (pre ++ post) e))
      (readRecord g s (some read) build (.object (pre ++ (key, j) :: post) e)) := by
  have last : Keeps (readRecord g s (some read) build (.object (pre ++ post) e))
      (readRecord g s (some read) build (.object ((pre ++ post) ++ [(key, j)]) e)) := by
    intro a h
    obtain ⟨f, hf, h⟩ := bind_eq_ok.1 h
    obtain ⟨f', members, hf⟩ := bind_eq_ok.1 hf
    obtain ⟨u, ending, hf⟩ := bind_eq_ok.1 hf
    obtain rfl := Except.ok.inj hf
    have unread := readMembers_unread missing members
    obtain ⟨name, hname, hfield⟩ := s.fieldOf?_eq_some.1 hkey
    have added := readMember_eq_ok.2 (Adds.field hname hfield unread hv)
    have all : readMembers s read Fields.none ((pre ++ post) ++ [(key, j)]) =
        .ok (f'.set k v) := by
      rw [readMembers_eq_foldlM] at members ⊢
      rw [List.foldlM_append, members]
      exact bind_eq_ok.2 ⟨f', rfl, bind_eq_ok.2 ⟨_, added, rfl⟩⟩
    simp only [readRecord, readObjectForm, all, bind, Except.bind, ending]
    exact (hbuild f' unread).trans h
  -- members may change places, so it is enough to add the field at the end
  refine last.trans (keeps_readRecord_perm ?_)
  rw [List.append_assoc]
  exact List.perm_append_comm.append_left pre

theorem readRecord_list_eq_object (closed : ∀ b, e ≠ .broken b) {items : List Json}
    {ms : List Member} (h : Labelled s.fieldOf? s.keys items ms) (distinct : s.keys.Nodup) :
    readRecord g s (some read) build (.list items e) =
      readRecord g s (some read) build (.object ms e) := by
  simp only [readRecord, readArrayForm_eq_readObjectForm g closed h distinct]

end

end Record

end DocTree.Json
