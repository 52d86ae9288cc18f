import DocTree.Proofs.Command.Documenting

/-!
# Inputs that are skipped

An input that holds no project in the tree in which the run comes to its first input will not hold
one later either, since all that is written on the way is documentation. So its turn leaves the
tree as it is, and the run does without it what it does with it, one warning apart.
-/
namespace DocTree.Command

def FileTree.holdsProject (t : FileTree) (name : String) : Bool :=
  match t.read name with
  | .error _ => false
  | .ok text => (Reflection.ofText text).toBool

theorem FileTree.holdsProject_iff {t : FileTree} {name : String} :
    t.holdsProject name = true ↔ ∃ r, t.Holds name r := by
  unfold holdsProject Holds
  cases hread : t.read name with
  | error cause => simp
  | ok text => cases hr : Reflection.ofText text <;> simp [hr, Except.toBool]

namespace Session

def sound (s : Session) : Session :=
  { s with inputs := s.inputs.filter s.start.holdsProject }

theorem skip_of_documents {s : Session} {t u : FileTree} {input : String} (h : t.Documents u)
    (hno : ¬ t.holdsProject input = true) : ∃ fault, s.converted u input = .error fault := by
  rcases s.converted_cases u input with ⟨fault, hc, -⟩ | ⟨r, -, hr⟩
  · exact ⟨fault, hc⟩
  · exact absurd (FileTree.holdsProject_iff.2 ⟨r, h.holds hr⟩) hno

theorem run_filter (s : Session) {t u : FileTree} (h : t.Documents u) (inputs : List String) :
    (s.on u (inputs.filter t.holdsProject)).run.2 = (s.on u inputs).run.2 ∧
      (s.on u (inputs.filter t.holdsProject)).run.1.status = (s.on u inputs).run.1.status := by
  induction inputs generalizing u with
  | nil => exact ⟨rfl, rfl⟩
  | cons input inputs ih =>
    by_cases hin : t.holdsProject input = true
    · rw [List.filter_cons_of_pos hin]
      cases s.visit u input with
      | skip hc hrun =>
        rw [hrun, hrun]
        exact ih h
      | write hc hdoc hrun =>
        rw [hrun, hrun]
        exact ih (h.trans hdoc)
      | refuse hc hrun =>
        rw [hrun, hrun]
        exact ⟨rfl, rfl⟩
    · -- `u` has nothing more than `t` but documentation, so this turn writes nothing.
      rw [List.filter_cons_of_neg hin]
      obtain ⟨fault, hc⟩ := skip_of_documents (s := s) h hin
      rw [run_skip hc]
      exact ih h

def before (s : Session) (i : Nat) : Session := { s with inputs := s.inputs.take i }

def skip? (s : Session) (t : FileTree) (input : String) : Option Warning :=
  match s.converted t input with
  | .error fault => some (.skipped input fault)
  | .ok _ => none

def skipped? (s : Session) (i : Nat) : Option Warning :=
  if (s.before i).run.1.status = .done then s.inputs[i]?.bind (s.skip? (s.treeAt i)) else none

theorem skipped?_zero (s : Session) (t : FileTree) (input : String) (inputs : List String) :
    (s.on t (input :: inputs)).skipped? 0 = s.skip? t input := rfl

theorem skipped?_succ {s : Session} {t u : FileTree} {input : String} {inputs : List String}
    (htree : ∀ rest, (s.on t (input :: rest)).run.2 = (s.on u rest).run.2)
    (hstatus : ∀ rest, (s.on t (input :: rest)).run.1.status = (s.on u rest).run.1.status)
    (i : Nat) :
    (s.on t (input :: inputs)).skipped? (i + 1) = (s.on u inputs).skipped? i := by
  have status_eq : ((s.on t (input :: inputs)).before (i + 1)).run.1.status =
      ((s.on u inputs).before i).run.1.status := hstatus (inputs.take i)
  have tree_eq : (s.on t (input :: inputs)).treeAt (i + 1) = (s.on u inputs).treeAt i :=
    htree (inputs.take i)
  rw [skipped?, skipped?, status_eq, tree_eq]
  rfl

theorem skipped?_of_refused {s : Session} {t : FileTree} {input : String} {failure : Failure}
    (hrun : ∀ rest, (s.on t (input :: rest)).run.1.status = .failed failure)
    (inputs : List String) (i : Nat) : (s.on t (input :: inputs)).skipped? (i + 1) = none := by
  have status_eq : ((s.on t (input :: inputs)).before (i + 1)).run.1.status = .failed failure :=
    hrun (inputs.take i)
  rw [skipped?, status_eq, if_neg (by simp)]

theorem warnings_on (s : Session) (t : FileTree) (inputs : List String) :
    (s.on t inputs).run.1.warnings =
      (List.range inputs.length).filterMap (s.on t inputs).skipped? := by
  induction inputs generalizing t with
  | nil => rfl
  | cons input inputs ih =>
    rw [List.length_cons, List.range_succ_eq_map, List.filterMap_cons, List.filterMap_map,
      skipped?_zero]
    cases s.visit t input with
    | skip hc hrun =>
      have later : ∀ i, (s.on t (input :: inputs)).skipped? (i + 1) = (s.on t inputs).skipped? i :=
        skipped?_succ (fun rest => by rw [hrun]) (fun rest => by rw [hrun]; rfl)
      rw [hrun, skip?, hc]
      simp only [Function.comp_def, Nat.succ_eq_add_one, later, ← ih]
      rfl
    | @write text u hc hdoc hrun =>
      have later : ∀ i, (s.on t (input :: inputs)).skipped? (i + 1) = (s.on u inputs).skipped? i :=
        skipped?_succ (fun rest => by rw [hrun]) (fun rest => by rw [hrun])
      rw [hrun, skip?, hc]
      simp only [Function.comp_def, Nat.succ_eq_add_one, later, ← ih]
    | refuse hc hrun =>
      have later : ∀ i, (s.on t (input :: inputs)).skipped? (i + 1) = none :=
        skipped?_of_refused (fun rest => by rw [hrun]; rfl) inputs
      rw [hrun, skip?, hc]
      simp [later, Outcome.failed]

/-- Inputs that hold no project at the start of a run make no difference to what it writes and how
it ends. Each input that is skipped is warned of once, and nothing that the run writes can be
decoded. -/
theorem broken_inputs_harmless (s : Session) :
    s.run.2 = s.sound.run.2 ∧ s.run.1.status = s.sound.run.1.status ∧
      s.run.1.warnings = (List.range s.inputs.length).filterMap s.skipped? ∧
      ∀ i name r, (s.treeAt i).Holds name r → s.start.Holds name r := by
  obtain ⟨tree_eq, status_eq⟩ := s.run_filter (.refl s.start) s.inputs
  refine ⟨tree_eq.symm, status_eq.symm, s.warnings_on s.start s.inputs, ?_⟩
  intro i name r hr
  exact (s.run_documents s.start (s.inputs.take i)).holds hr

end Session

end DocTree.Command
