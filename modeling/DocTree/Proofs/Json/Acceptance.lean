import DocTree.Json.Record

/-!
# What readers accept

Two outcomes are compared by what they accept: what the first gives the second gives
too, while the cause of a refusal does not count. A reader that goes through a list part
by part may be given another part that it accepts alike, and where the parts do not
depend on each other they may change places. A value that is passed over or checked is
accepted when each of its parts is.
-/
namespace DocTree.Json

variable {α β : Type}

def Keeps (x y : Except Fault α) : Prop := ∀ a, x = .ok a → y = .ok a

theorem Keeps.refl (x : Except Fault α) : Keeps x x := fun _ h => h

theorem Keeps.trans {x y z : Except Fault α} (hxy : Keeps x y) (hyz : Keeps y z) : Keeps x z :=
  fun a h => hyz a (hxy a h)

theorem keeps_error (fault : Fault) (y : Except Fault α) : Keeps (.error fault) y :=
  fun _ h => nomatch h

@[simp] theorem bind_eq_ok {ε : Type} {x : Except ε α} {f : α → Except ε β} {b : β} :
    x >>= f = .ok b ↔ ∃ a, x = .ok a ∧ f a = .ok b := by
  cases x <;> simp [bind, Except.bind]

@[simp] theorem map_eq_ok {x : Except Fault α} {f : α → β} {b : β} :
    x.map f = .ok b ↔ ∃ a, x = .ok a ∧ f a = b := by
  cases x <;> simp [Except.map]

@[simp] theorem exists_unit_eq_ok {x : Except Fault Unit} {p : Prop} :
    (∃ u, x = .ok u ∧ p) ↔ x = .ok () ∧ p :=
  ⟨fun ⟨_, h⟩ => h, fun h => ⟨(), h⟩⟩

@[simp] theorem toOption_eq_some {x : Except Fault α} {a : α} :
    x.toOption = some a ↔ x = .ok a := by
  cases x <;> simp [Except.toOption]

theorem mismatch_ne_ok (expected : String) (j : Json) (a : α) : j.mismatch expected ≠ .ok a := by
  intro h
  cases j with
  | number n =>
    obtain ⟨v, -, h⟩ := bind_eq_ok.1 h
    cases h
  | text t =>
    obtain ⟨s, -, h⟩ := bind_eq_ok.1 h
    cases h
  | _ => cases h

theorem Keeps.bind {x y : Except Fault α} {f g : α → Except Fault β} (h : Keeps x y)
    (hfg : ∀ a, Keeps (f a) (g a)) : Keeps (x >>= f) (y >>= g) := by
  intro b hb
  obtain ⟨a, ha, hb⟩ := bind_eq_ok.1 hb
  exact bind_eq_ok.2 ⟨a, h a ha, hfg a b hb⟩

theorem Keeps.map {x y : Except Fault α} (h : Keeps x y) (f : α → β) :
    Keeps (x.map f) (y.map f) := by
  intro b hb
  obtain ⟨a, ha, rfl⟩ := map_eq_ok.1 hb
  exact map_eq_ok.2 ⟨a, h a ha, rfl⟩

section Fold

variable {step : β → α → Except Fault β}

theorem keeps_foldlM_replace {a b : α} (h : ∀ s, Keeps (step s a) (step s b)) (pre post : List α)
    (s : β) : Keeps ((pre ++ a :: post).foldlM step s) ((pre ++ b :: post).foldlM step s) := by
  rw [List.foldlM_append, List.foldlM_append]
  apply (Keeps.refl _).bind
  intro t
  exact (h t).bind fun _ => Keeps.refl _

theorem foldlM_insert {a : α} (h : ∀ s, step s a = .ok s) (pre post : List α) (s : β) :
    (pre ++ a :: post).foldlM step s = (pre ++ post).foldlM step s := by
  rw [List.foldlM_append, List.foldlM_append]
  apply bind_congr
  intro t
  rw [List.foldlM_cons, h]
  rfl

theorem keeps_foldlM_perm
    (h : ∀ s a b, Keeps (step s a >>= (step · b)) (step s b >>= (step · a))) {xs ys : List α}
    (p : xs.Perm ys) (s : β) : Keeps (xs.foldlM step s) (ys.foldlM step s) := by
  induction p generalizing s with
  | nil => exact Keeps.refl _
  | cons a _ ih => exact (Keeps.refl (step s a)).bind ih
  | swap a b xs =>
    have swapped := (h s b a).bind fun t => Keeps.refl (xs.foldlM step t)
    rw [bind_assoc, bind_assoc] at swapped
    exact swapped
  | trans _ _ ih₁ ih₂ => exact (ih₁ s).trans (ih₂ s)

theorem keeps_foldlM {step step' : β → α → Except Fault β} {xs : List α}
    (h : ∀ x ∈ xs, ∀ s, Keeps (step s x) (step' s x)) (s : β) :
    Keeps (xs.foldlM step s) (xs.foldlM step' s) := by
  induction xs generalizing s with
  | nil => exact Keeps.refl _
  | cons x xs ih =>
    obtain ⟨first, others⟩ := List.forall_mem_cons.1 h
    rw [List.foldlM_cons, List.foldlM_cons]
    exact (first s).bind (ih others)

theorem foldlM_invariant {step : β → α → Except Fault β} {P : β → Prop}
    (h : ∀ s x s', P s → step s x = .ok s' → P s') {xs : List α} {s s' : β} (hs : P s)
    (hxs : xs.foldlM step s = .ok s') : P s' := by
  induction xs generalizing s with
  | nil => exact Except.ok.inj hxs ▸ hs
  | cons x xs ih =>
    rw [List.foldlM_cons, bind_eq_ok] at hxs
    obtain ⟨t, ht, hxs⟩ := hxs
    exact ih (h s x t hs ht) hxs

end Fold

theorem keeps_mapM_replace {read : α → Except Fault β} {a b : α} (h : Keeps (read a) (read b))
    (pre post : List α) : Keeps ((pre ++ a :: post).mapM read) ((pre ++ b :: post).mapM read) := by
  rw [List.mapM_append, List.mapM_append, List.mapM_cons, List.mapM_cons]
  have rest := h.bind fun c => Keeps.refl (post.mapM read >>= fun cs => pure (c :: cs))
  exact (Keeps.refl _).bind fun _ => rest.bind fun _ => Keeps.refl _

theorem keeps_mapM {f g : α → Except Fault β} {xs : List α} (h : ∀ x ∈ xs, Keeps (f x) (g x)) :
    Keeps (xs.mapM f) (xs.mapM g) := by
  induction xs with
  | nil => exact Keeps.refl _
  | cons x xs ih =>
    obtain ⟨first, others⟩ := List.forall_mem_cons.1 h
    rw [List.mapM_cons, List.mapM_cons]
    exact first.bind fun _ => (ih others).bind fun _ => Keeps.refl _

theorem length_of_mapM_eq_ok {read : α → Except Fault β} {xs : List α} {ys : List β}
    (h : xs.mapM read = .ok ys) : ys.length = xs.length := by
  induction xs generalizing ys with
  | nil => exact Except.ok.inj h ▸ rfl
  | cons x xs ih =>
    rw [List.mapM_cons, bind_eq_ok] at h
    obtain ⟨y, -, h⟩ := h
    obtain ⟨zs, hzs, h⟩ := bind_eq_ok.1 h
    obtain rfl := Except.ok.inj h
    rw [List.length_cons, List.length_cons, ih hzs]

theorem exists_mapM_eq_ok {read : α → Except Fault β} {xs : List α}
    (h : ∀ x ∈ xs, ∃ y, read x = .ok y) : ∃ ys, xs.mapM read = .ok ys := by
  induction xs with
  | nil => exact ⟨[], rfl⟩
  | cons x xs ih =>
    obtain ⟨⟨y, hy⟩, others⟩ := List.forall_mem_cons.1 h
    obtain ⟨ys, hys⟩ := ih others
    exact ⟨y :: ys, by rw [List.mapM_cons, hy, hys]; rfl⟩

theorem exists_of_mem_mapM {read : α → Except Fault β} {xs : List α} {ys : List β}
    (h : xs.mapM read = .ok ys) : ∀ y ∈ ys, ∃ x ∈ xs, read x = .ok y := by
  induction xs generalizing ys with
  | nil =>
    obtain rfl := Except.ok.inj h
    exact fun y hy => absurd hy List.not_mem_nil
  | cons x xs ih =>
    rw [List.mapM_cons, bind_eq_ok] at h
    obtain ⟨y, hy, h⟩ := h
    obtain ⟨zs, hzs, h⟩ := bind_eq_ok.1 h
    obtain rfl := Except.ok.inj h
    refine List.forall_mem_cons.2 ⟨⟨x, List.mem_cons_self, hy⟩, fun z hz => ?_⟩
    obtain ⟨w, hw, hz⟩ := ih hzs z hz
    exact ⟨w, List.mem_cons_of_mem _ hw, hz⟩

theorem mapM_middle_eq_ok {read : α → Except Fault β} {pre post : List α} {x : α} {ys : List β} :
    (pre ++ x :: post).mapM read = .ok ys ↔ ∃ as y bs, pre.mapM read = .ok as ∧
      read x = .ok y ∧ post.mapM read = .ok bs ∧ ys = as ++ y :: bs := by
  rw [List.mapM_append, List.mapM_cons]
  simp only [bind_eq_ok]
  constructor
  · rintro ⟨as, has, zs, ⟨y, hy, bs, hbs, hzs⟩, hys⟩
    obtain rfl := Except.ok.inj hzs
    exact ⟨as, y, bs, has, hy, hbs, (Except.ok.inj hys).symm⟩
  · rintro ⟨as, y, bs, has, hy, hbs, rfl⟩
    exact ⟨as, has, y :: bs, ⟨y, hy, bs, hbs, rfl⟩, rfl⟩

theorem forM_eq_ok {f : α → Except Fault Unit} {xs : List α} :
    xs.forM f = .ok () ↔ ∀ x ∈ xs, f x = .ok () := by
  induction xs with
  | nil => exact ⟨fun _ _ h => absurd h List.not_mem_nil, fun _ => rfl⟩
  | cons x xs ih =>
    have first : (x :: xs).forM f = (f x >>= fun _ => xs.forM f) := rfl
    rw [first, bind_eq_ok, exists_unit_eq_ok, ih, List.forall_mem_cons]

theorem forall_mem_insert {p : α → Prop} {a : α} {pre post : List α}
    (h : ∀ x ∈ pre ++ post, p x) (ha : p a) : ∀ x ∈ pre ++ a :: post, p x := by
  simp only [List.forall_mem_append, List.forall_mem_cons] at h ⊢
  exact ⟨h.1, ha, h.2⟩

theorem forall_mem_replace {p : α → Prop} {a b : α} {pre post : List α}
    (h : ∀ x ∈ pre ++ a :: post, p x) (hb : p b) : ∀ x ∈ pre ++ b :: post, p x := by
  simp only [List.forall_mem_append, List.forall_mem_cons] at h ⊢
  exact ⟨h.1, hb, h.2.2⟩

theorem skipItems_eq_ok {js : List Json} :
    skipItems js = .ok () ↔ ∀ j ∈ js, j.skip = .ok () := by
  induction js with
  | nil => exact ⟨fun _ _ h => absurd h List.not_mem_nil, fun _ => rfl⟩
  | cons j js ih => rw [skipItems, bind_eq_ok, exists_unit_eq_ok, ih, List.forall_mem_cons]

theorem skipMembers_eq_ok {ms : List Member} :
    skipMembers ms = .ok () ↔ ∀ m ∈ ms, m.1.skip = .ok () ∧ m.2.skip = .ok () := by
  induction ms with
  | nil => exact ⟨fun _ _ h => absurd h List.not_mem_nil, fun _ => rfl⟩
  | cons m ms ih =>
    rw [skipMembers, List.forall_mem_cons, ← ih]
    simp only [bind_eq_ok, exists_unit_eq_ok, and_assoc]

theorem skip_list_eq_ok {js : List Json} {e : Ending} :
    (Json.list js e).skip = .ok () ↔
      (∀ j ∈ js, j.skip = .ok ()) ∧ e.check .skipping = .ok () := by
  rw [Json.skip, bind_eq_ok, exists_unit_eq_ok, skipItems_eq_ok]

theorem skip_object_eq_ok {ms : List Member} {e : Ending} :
    (Json.object ms e).skip = .ok () ↔
      (∀ m ∈ ms, m.1.skip = .ok () ∧ m.2.skip = .ok ()) ∧ e.check .skipping = .ok () := by
  rw [Json.skip, bind_eq_ok, exists_unit_eq_ok, skipMembers_eq_ok]

theorem check_list_eq_ok {n : Nat} {js : List Json} {e : Ending} :
    (Json.list js e).check (n + 1) = .ok () ↔
      (∀ j ∈ js, j.check n = .ok ()) ∧ e.check .decoding = .ok () := by
  rw [Json.check, bind_eq_ok, exists_unit_eq_ok, forM_eq_ok]

theorem check_object_eq_ok {n : Nat} {ms : List Member} {e : Ending} :
    (Json.object ms e).check (n + 1) = .ok () ↔
      (∀ m ∈ ms, (∃ name, m.1.read = .ok name) ∧ m.2.check n = .ok ()) ∧
        e.check .decoding = .ok () := by
  rw [Json.check, bind_eq_ok, exists_unit_eq_ok, forM_eq_ok]
  simp only [bind_eq_ok, exists_and_right]

theorem Ending.check_eq_ok {stance : Stance} {e : Ending} :
    e.check stance = .ok () ↔ ∀ b, e ≠ .broken b := by
  cases e <;> simp [Ending.check]

theorem Ending.check_any {stance stance' : Stance} {e : Ending} (h : e.check stance = .ok ()) :
    e.check stance' = .ok () := check_eq_ok.2 (check_eq_ok.1 h)

theorem readPieces_ending {e : Ending} {ps : List Piece} {cs : List Char}
    (h : readPieces e ps = .ok cs) : e.check .decoding = .ok () := by
  fun_induction readPieces e ps generalizing cs with
  | case1 => exact (exists_unit_eq_ok.1 (bind_eq_ok.1 h)).1
  | case2 c ps ih =>
    obtain ⟨_, h, -⟩ := bind_eq_ok.1 h
    exact ih h
  | case4 n _ _ m ps _ ih =>
    obtain ⟨_, h, -⟩ := bind_eq_ok.1 h
    exact ih h
  | case8 n ps _ _ ih =>
    obtain ⟨_, h, -⟩ := bind_eq_ok.1 h
    exact ih h
  | _ => exact nomatch h

theorem Literal.skip_of_read {t : Literal} {s : String} (h : t.read = .ok s) :
    t.skip = .ok () := by
  obtain ⟨cs, hcs, -⟩ := map_eq_ok.1 h
  exact Ending.check_any (readPieces_ending hcs)

theorem skip_of_check : ∀ {n : Nat} {j : Json}, j.check n = .ok () → j.skip = .ok ()
  | _, .null, _ | _, .boolean _, _ | _, .number _, _ => rfl
  | n, .text t, h => by
      rw [Json.check, bind_eq_ok] at h
      obtain ⟨s, hs, -⟩ := h
      exact t.skip_of_read hs
  | 0, .list _ _, h => nomatch h
  | 0, .object _ _, h => nomatch h
  | n + 1, .list js e, h => by
      obtain ⟨items, ending⟩ := check_list_eq_ok.1 h
      refine skip_list_eq_ok.2 ⟨fun j hj => ?_, Ending.check_any ending⟩
      exact skip_of_check (items j hj)
  | n + 1, .object ms e, h => by
      obtain ⟨members, ending⟩ := check_object_eq_ok.1 h
      refine skip_object_eq_ok.2 ⟨fun m hm => ?_, Ending.check_any ending⟩
      obtain ⟨⟨name, hkey⟩, value⟩ := members m hm
      exact ⟨m.1.skip_of_read hkey, skip_of_check value⟩
  | _, .broken b, h => by
      rw [Json.check] at h
      exact nomatch h

section Parts

variable {n : Nat} {j k : Json} {e : Ending}

theorem keeps_check_item {pre post : List Json} (h : Keeps (j.check n) (k.check n)) :
    Keeps ((Json.list (pre ++ j :: post) e).check (n + 1))
      ((Json.list (pre ++ k :: post) e).check (n + 1)) := by
  intro _ checked
  obtain ⟨items, ending⟩ := check_list_eq_ok.1 checked
  have replaced := h () (items j (List.mem_append_right _ List.mem_cons_self))
  exact check_list_eq_ok.2 ⟨forall_mem_replace items replaced, ending⟩

theorem keeps_check_member {key : Literal} {pre post : List Member}
    (h : Keeps (j.check n) (k.check n)) :
    Keeps ((Json.object (pre ++ (key, j) :: post) e).check (n + 1))
      ((Json.object (pre ++ (key, k) :: post) e).check (n + 1)) := by
  intro _ checked
  obtain ⟨members, ending⟩ := check_object_eq_ok.1 checked
  obtain ⟨named, value⟩ := members (key, j) (List.mem_append_right _ List.mem_cons_self)
  exact check_object_eq_ok.2 ⟨forall_mem_replace members ⟨named, h () value⟩, ending⟩

theorem keeps_check_perm {ms ns : List Member} (p : ms.Perm ns) :
    Keeps ((Json.object ms e).check (n + 1)) ((Json.object ns e).check (n + 1)) := by
  intro _ checked
  obtain ⟨members, ending⟩ := check_object_eq_ok.1 checked
  exact check_object_eq_ok.2 ⟨fun m hm => members m (p.mem_iff.2 hm), ending⟩

theorem keeps_check_insert {key : Literal} {pre post : List Member} {name : String}
    (hname : key.read = .ok name) (hj : j.check n = .ok ()) :
    Keeps ((Json.object (pre ++ post) e).check (n + 1))
      ((Json.object (pre ++ (key, j) :: post) e).check (n + 1)) := by
  intro _ checked
  obtain ⟨members, ending⟩ := check_object_eq_ok.1 checked
  exact check_object_eq_ok.2 ⟨forall_mem_insert members ⟨⟨name, hname⟩, hj⟩, ending⟩

theorem keeps_skip_item {pre post : List Json} (h : Keeps j.skip k.skip) :
    Keeps (Json.list (pre ++ j :: post) e).skip (Json.list (pre ++ k :: post) e).skip := by
  intro _ skipped
  obtain ⟨items, ending⟩ := skip_list_eq_ok.1 skipped
  have replaced := h () (items j (List.mem_append_right _ List.mem_cons_self))
  exact skip_list_eq_ok.2 ⟨forall_mem_replace items replaced, ending⟩

theorem keeps_skip_member {key : Literal} {pre post : List Member} (h : Keeps j.skip k.skip) :
    Keeps (Json.object (pre ++ (key, j) :: post) e).skip
      (Json.object (pre ++ (key, k) :: post) e).skip := by
  intro _ skipped
  obtain ⟨members, ending⟩ := skip_object_eq_ok.1 skipped
  obtain ⟨named, value⟩ := members (key, j) (List.mem_append_right _ List.mem_cons_self)
  exact skip_object_eq_ok.2 ⟨forall_mem_replace members ⟨named, h () value⟩, ending⟩

theorem keeps_skip_perm {ms ns : List Member} (p : ms.Perm ns) :
    Keeps (Json.object ms e).skip (Json.object ns e).skip := by
  intro _ skipped
  obtain ⟨members, ending⟩ := skip_object_eq_ok.1 skipped
  exact skip_object_eq_ok.2 ⟨fun m hm => members m (p.mem_iff.2 hm), ending⟩

end Parts

end DocTree.Json
