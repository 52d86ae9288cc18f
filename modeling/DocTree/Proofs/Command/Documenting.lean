import DocTree.Proofs.Command.Outputs
import DocTree.Proofs.Entry.NoProject
import Mathlib.Data.List.Basic

/-!
# What a run does to a file tree

At its turn an input is skipped, its documentation is written, or the run ends because it cannot be
written. However often this happens, the tree has changed only in places with the name of an
output, where it now holds documentation. So directories are what they were, a scan finds the same
projects in them, and since documentation is no project, nothing can be decoded that could not be
decoded before.
-/
namespace DocTree.Command

theorem isProjectName_outputName (input : String) : isProjectName (outputName input) = false := by
  simp [isProjectName, outputName]

namespace FileTree

/-- The second tree is the first one with documentation in some places that are named for it. -/
structure Documents (t u : FileTree) : Prop where
  directories : t.SameDirectories u
  entry : ∀ q, u.entry? q = t.entry? q ∨ ∃ input p l cs, q = outputName input :: p ∧
    u.entry? q = some (.file (.text (Entry.fileText l cs)))
  projects : ∀ q, (u.namesAt q).filter isProjectName = (t.namesAt q).filter isProjectName

namespace Documents

variable {t u v : FileTree}

theorem refl (t : FileTree) : t.Documents t := ⟨.refl t, fun _ => .inl rfl, fun _ => rfl⟩

theorem trans (h : t.Documents u) (h' : u.Documents v) : t.Documents v := by
  refine ⟨h.directories.trans h'.directories, fun q => ?_, fun q => ?_⟩
  · rcases h'.entry q with hq | hq
    · rw [hq]
      exact h.entry q
    · exact .inr hq
  · rw [h'.projects, h.projects]

theorem holds (h : t.Documents u) {name : String} {r : Reflection} (hr : u.Holds name r) :
    t.Holds name r := by
  obtain ⟨text, hread, htext⟩ := hr
  rw [read, find?, h.directories.place?_eq] at hread
  refine ⟨text, ?_, htext⟩
  rw [read, find?]
  cases hp : t.place? name with
  | none =>
    rw [hp] at hread
    cases hread
  | some q =>
    rw [hp, Option.bind_some] at hread
    rw [Option.bind_some]
    rcases h.entry q with hq | ⟨input, p, l, cs, -, hq⟩
    · rwa [hq] at hread
    · rw [hq] at hread
      cases hread
      rw [Entry.ofText_fileText] at htext
      cases htext

end Documents

def passedName (test : String → Bool) (q : Place) (e : Place × Entry) : Option String :=
  match e.1 with
  | name :: r => if r = q ∧ test name then some name else none
  | [] => none

theorem filter_namesAt (test : String → Bool) (t : FileTree) (q : Place) :
    (t.namesAt q).filter test = t.entries.filterMap (passedName test q) := by
  rw [namesAt, List.filter_filterMap]
  apply List.filterMap_congr
  rintro ⟨place, e⟩ -
  cases place with
  | nil => rfl
  | cons name r =>
    by_cases hr : r = q <;> simp [passedName, hr, Option.filter]

theorem namesAt_set {n : String} {test : String → Bool} (hn : test n = false) (t : FileTree)
    (p q : Place) (e : Entry) :
    ((t.set (n :: p) e).namesAt q).filter test = (t.namesAt q).filter test := by
  have passed_none (e : Entry) : passedName test q (n :: p, e) = none := by simp [passedName, hn]
  rw [filter_namesAt, filter_namesAt, set, List.filterMap_append, List.filterMap_filter,
    List.filterMap_cons_none (passed_none e), List.filterMap_nil, List.append_nil]
  apply List.filterMap_congr
  rintro ⟨place, e⟩ -
  by_cases hplace : place = n :: p
  · simp [hplace, passed_none]
  · simp [hplace]

theorem documents_set {t : FileTree} {input : String} {p : Place}
    (h : t.isDirectory (outputName input :: p) = false) (l : Json.Layout)
    (cs : List Entry.Container) :
    t.Documents (t.set (outputName input :: p) (.file (.text (Entry.fileText l cs)))) := by
  refine ⟨sameDirectories_set (List.cons_ne_nil _ _) h _, fun q => ?_, fun q => ?_⟩
  · rw [entry?_set (List.cons_ne_nil _ _)]
    by_cases hq : q = outputName input :: p
    · exact .inr ⟨input, p, l, cs, hq, if_pos hq⟩
    · exact .inl (if_neg hq)
  · exact namesAt_set (isProjectName_outputName input) t p q _

theorem writePlace?_output {t : FileTree} {directory input : String} {q : Place}
    (h : t.writePlace? (joinName directory (outputName input)) = some q) :
    ∃ p, q = outputName input :: p ∧ t.isDirectory q = false := by
  obtain ⟨hplace, -, hdir⟩ := writePlace?_spec h
  rw [t.place?_joinName directory (outputName_isEntryName input)] at hplace
  obtain ⟨p, -, hq⟩ := Option.map_eq_some_iff.1 hplace
  exact ⟨p, hq.symm, hdir⟩

end FileTree

namespace Session

/-- What happens at the turn of one input, and how the run goes on behind it. -/
inductive Visit (s : Session) (t : FileTree) (input : String) : Prop
  | skip {fault : InputFault} : s.converted t input = .error fault →
      (∀ inputs, (s.on t (input :: inputs)).run =
        ((s.on t inputs).run.1.after [.skipped input fault], (s.on t inputs).run.2)) →
      Visit s t input
  | write {text : String} {u : FileTree} : s.converted t input = .ok text → t.Documents u →
      (∀ inputs, (s.on t (input :: inputs)).run = (s.on u inputs).run) → Visit s t input
  | refuse {text : String} : s.converted t input = .ok text →
      (∀ inputs, (s.on t (input :: inputs)).run =
        (.failed (.unwritten (s.target input)), t)) →
      Visit s t input

theorem documents_write {s : Session} {t : FileTree} {input : String} {q : Place}
    (hq : t.writePlace? (s.target input) = some q) (r : Reflection) :
    t.Documents (t.set q (.file (.text (s.documentation r)))) := by
  obtain ⟨p, rfl, hdir⟩ := FileTree.writePlace?_output hq
  exact FileTree.documents_set hdir _ _

theorem visit (s : Session) (t : FileTree) (input : String) : Visit s t input := by
  rcases s.converted_cases t input with ⟨fault, hc, -⟩ | ⟨r, hc, -⟩
  · exact .skip hc fun inputs => run_skip hc inputs
  · cases hq : t.writePlace? (s.target input) with
    | none =>
      refine .refuse hc fun inputs => ?_
      rw [run_write hc, FileTree.write_eq, hq]
      rfl
    | some q =>
      refine .write hc (documents_write hq r) fun inputs => ?_
      rw [run_write hc, FileTree.write_eq, hq]
      rfl

theorem run_documents (s : Session) (t : FileTree) (inputs : List String) :
    t.Documents (s.on t inputs).run.2 := by
  induction inputs generalizing t with
  | nil => exact .refl t
  | cons input inputs ih =>
    cases s.visit t input with
    | skip hc hrun =>
      rw [hrun]
      exact ih t
    | write hc hdoc hrun =>
      rw [hrun]
      exact hdoc.trans (ih _)
    | refuse hc hrun =>
      rw [hrun]
      exact .refl t

end Session

end DocTree.Command
