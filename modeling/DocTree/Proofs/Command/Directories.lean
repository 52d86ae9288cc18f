import DocTree.Proofs.Command.Documenting

/-!
# Making the output directory

Making directories adds to a tree and takes nothing away: each name that led to a directory still
does, and each file has its text. Whether they are made or not, the same again changes nothing,
also when documentation has been written in between.
-/
namespace DocTree.Command.FileTree

variable {t u v : FileTree}

/-- The second tree has all that the first one has. -/
structure Grows (t u : FileTree) : Prop where
  here : u.here = t.here
  entry : ∀ q e, t.entry? q = some e → u.entry? q = some e
  closed : u.closed = t.closed

theorem isDirectory_iff {p : Place} : t.isDirectory p = true ↔ t.entry? p = some .directory := by
  rw [isDirectory, beq_iff_eq]

theorem kind_directory_iff {name : String} :
    t.kind name = .directory ↔ ∃ p, t.place? name = some p ∧ t.isDirectory p = true := by
  rw [kind, find?]
  cases hp : t.place? name with
  | none => simp
  | some p =>
    rw [Option.bind_some]
    cases he : t.entry? p with
    | none => simp [isDirectory_iff, he]
    | some e => cases e <;> simp [isDirectory_iff, he]

theorem SameDirectories.kind_directory (h : t.SameDirectories u) (name : String) :
    u.kind name = .directory ↔ t.kind name = .directory := by
  rw [kind_directory_iff, kind_directory_iff, h.place?_eq]
  simp only [h.isDirectory]

namespace Grows

theorem refl (t : FileTree) : t.Grows t := ⟨rfl, fun _ _ h => h, rfl⟩

theorem trans (h : t.Grows u) (h' : u.Grows v) : t.Grows v :=
  ⟨h'.here.trans h.here, fun q e hq => h'.entry q e (h.entry q e hq), h'.closed.trans h.closed⟩

theorem isDirectory (h : t.Grows u) {p : Place} (hp : t.isDirectory p = true) :
    u.isDirectory p = true := isDirectory_iff.2 (h.entry p _ (isDirectory_iff.1 hp))

theorem follow_eq (h : t.Grows u) {p q : Place} {parts : List String}
    (hq : t.follow p parts = some q) : u.follow p parts = some q := by
  induction parts generalizing p with
  | nil => exact hq
  | cons part parts ih =>
    rw [follow] at hq ⊢
    split at hq
    · rename_i hp
      rw [if_pos (h.isDirectory hp)]
      exact ih hq
    · cases hq

theorem place?_eq (h : t.Grows u) {name : String} {p : Place} (hp : t.place? name = some p) :
    u.place? name = some p := by
  rw [place?] at hp ⊢
  split at hp
  · cases hp
  · rename_i hne
    rw [if_neg hne, start, h.here]
    exact h.follow_eq hp

theorem find?_eq (h : t.Grows u) {name : String} {e : Entry} (he : t.find? name = some e) :
    u.find? name = some e := by
  obtain ⟨p, hp, hentry⟩ := Option.bind_eq_some_iff.1 he
  rw [find?, h.place?_eq hp, Option.bind_some, h.entry p e hentry]

theorem kind_directory (h : t.Grows u) {name : String} (hname : t.kind name = .directory) :
    u.kind name = .directory := by
  obtain ⟨p, hp, hdir⟩ := kind_directory_iff.1 hname
  exact kind_directory_iff.2 ⟨p, h.place?_eq hp, h.isDirectory hdir⟩

end Grows

theorem grows_set {p : Place} (h : t.entry? p = none) (e : Entry) : t.Grows (t.set p e) := by
  have hp : p ≠ [] := by
    rintro rfl
    cases h
  refine ⟨rfl, fun q e' hq => ?_, rfl⟩
  have hne : q ≠ p := by
    rintro rfl
    rw [h] at hq
    cases hq
  rw [entry?_set hp, if_neg hne, hq]

theorem makeAlong_grows (t : FileTree) (p : Place) (parts : List String) :
    t.Grows (t.makeAlong p parts).2 := by
  induction parts generalizing t p with
  | nil => exact .refl t
  | cons part parts ih =>
    rw [makeAlong]
    split
    · exact ih t _
    · exact .refl t
    · rename_i hnone
      exact (grows_set hnone _).trans (ih _ _)

theorem makeDirectories_grows (t : FileTree) (name : String) :
    t.Grows (t.makeDirectories name).2 := makeAlong_grows t _ _

namespace Documents

theorem entry_directory (h : t.Documents u) {q : Place} (hq : t.entry? q = some .directory) :
    u.entry? q = some .directory := by
  rw [← isDirectory_iff] at hq ⊢
  rwa [h.directories.isDirectory]

theorem entry_file (h : t.Documents u) {q : Place} {c : Content}
    (hq : t.entry? q = some (.file c)) : ∃ c', u.entry? q = some (.file c') := by
  rcases h.entry q with hu | ⟨input, p, l, cs, -, hu⟩
  · exact ⟨c, hu.trans hq⟩
  · exact ⟨_, hu⟩

end Documents

theorem makeAlong_again {p : Place} {parts : List String}
    (h : (t.makeAlong p parts).2.Documents u) :
    u.makeAlong p parts = ((t.makeAlong p parts).1, u) := by
  -- The tree in `h` is the one behind all parts, so what one part makes has to be carried to it.
  induction parts generalizing t p with
  | nil => rfl
  | cons part parts ih =>
    rw [makeAlong] at h
    rw [makeAlong, makeAlong]
    cases hq : t.entry? (go p part) with
    | none =>
      simp only [hq] at h ⊢
      have made : entry? (t.set (go p part) .directory) (go p part) = some .directory := by
        rw [entry?_set, if_pos rfl]
        intro hnil
        rw [hnil] at hq
        cases hq
      simp only [h.entry_directory ((makeAlong_grows _ _ _).entry _ _ made), ih h]
    | some e =>
      cases e with
      | directory =>
        simp only [hq] at h ⊢
        simp only [h.entry_directory ((makeAlong_grows _ _ _).entry _ _ hq), ih h]
      | file c =>
        simp only [hq] at h ⊢
        obtain ⟨c', hc⟩ := h.entry_file hq
        simp only [hc]

theorem makeDirectories_again {name : String} (h : (t.makeDirectories name).2.Documents u) :
    u.makeDirectories name = ((t.makeDirectories name).1, u) := by
  have grows := t.makeDirectories_grows name
  have start_eq : u.start name = t.start name := by
    rw [start, start, h.directories.here, grows.here]
  have kind_eq : (u.kind name == .directory) =
      ((t.makeDirectories name).2.kind name == .directory) := by
    rw [Bool.eq_iff_iff, beq_iff_eq, beq_iff_eq]
    exact h.directories.kind_directory name
  rw [makeDirectories, start_eq, makeAlong_again h]
  simp only [kind_eq]
  rfl

end DocTree.Command.FileTree
