import DocTree.Proofs.Command.Documenting

/-!
# Projects of a directory

A directory stands for the files in it that have the name of a project. The last part of such a
name is one as well, so no output stands where the name leads, and a scan finds the same projects,
with the same texts, however much documentation has been written.
-/
namespace DocTree.Command

theorem isProjectName_iff {name : String} : isProjectName name = true ↔
    ".json".toList <:+ name.toList ∧ ¬ ".docs.json".toList <:+ name.toList := by
  rw [isProjectName, Bool.and_eq_true, Bool.not_eq_true', List.isSuffixOf_iff_suffix,
    ← Bool.not_eq_true, List.isSuffixOf_iff_suffix]

theorem suffix_behind_slash {w : List Char} (h : '/' ∉ w) (xs ys : List Char) :
    w <:+ xs ++ '/' :: ys ↔ w <:+ ys := by
  constructor
  · intro hw
    have hys : '/' :: ys <:+ xs ++ '/' :: ys := List.suffix_append _ _
    rcases List.suffix_or_suffix_of_suffix hw hys with hw | hys
    · rcases List.suffix_cons_iff.1 hw with rfl | hw
      · exact absurd List.mem_cons_self h
      · exact hw
    · exact absurd (hys.subset List.mem_cons_self) h
  · intro hw
    exact hw.trans ((List.suffix_cons _ _).trans (List.suffix_append _ _))

theorem isProjectName_behind_slash (xs : List Char) (name : String) :
    isProjectName (String.ofList (xs ++ '/' :: name.toList)) = isProjectName name := by
  rw [Bool.eq_iff_iff, isProjectName_iff, isProjectName_iff]
  simp only [String.toList_ofList]
  rw [suffix_behind_slash (by decide), suffix_behind_slash (by decide)]

theorem isProjectName_joinName (directory name : String) :
    isProjectName (joinName directory name) = isProjectName name := by
  by_cases hrooted : isRooted name = true
  · rw [joinName, if_pos hrooted]
  · rcases Path.joinName_cases (eq_false_of_ne_true hrooted) directory with
      ⟨-, hjoined⟩ | ⟨xs, hjoined, -⟩
    · rw [hjoined]
    · rw [hjoined, isProjectName_behind_slash]

theorem nameParts_project {name : String} (h : isProjectName name = true) :
    ∃ parts last, nameParts name = parts ++ [last] ∧ isProjectName last = true := by
  by_cases hslash : '/' ∈ name.toList
  · obtain ⟨xs, ys, hname⟩ := List.append_of_mem hslash
    have name_eq : name = String.ofList (xs ++ '/' :: (String.ofList ys).toList) := by
      rw [String.toList_ofList, ← hname, String.ofList_toList]
    have shorter : ys.length < name.toList.length := by simp [hname]; omega
    rw [name_eq, isProjectName_behind_slash] at h
    obtain ⟨parts, last, hparts, hlast⟩ := nameParts_project h
    refine ⟨nameParts (String.ofList xs) ++ parts, last, ?_, hlast⟩
    rw [name_eq, nameParts_slash, String.ofList_toList, hparts, List.append_assoc]
  · refine ⟨[], name, ?_, h⟩
    rw [nameParts, Path.splitSlash_of_notMem hslash, List.map_singleton, String.ofList_toList]
    rfl
termination_by name.toList.length
decreasing_by rwa [String.toList_ofList]

namespace FileTree

theorem place?_project {name : String} (h : isProjectName name = true) {t : FileTree} {q : Place}
    (hq : t.place? name = some q) : ∃ last p, q = last :: p ∧ isProjectName last = true := by
  obtain ⟨parts, last, hparts, hlast⟩ := nameParts_project h
  have last_ne (part : String) (hpart : isProjectName part = false) : last ≠ part := by
    rintro rfl
    rw [hlast] at hpart
    cases hpart
  have hgo (p : Place) : go p last = last :: p := by
    rw [go, if_neg (by simp [last_ne "" (by decide), last_ne "." (by decide)]),
      if_neg (last_ne ".." (by decide))]
  rw [place?, hparts, follow_append] at hq
  split at hq
  · cases hq
  obtain ⟨p, -, hp⟩ := Option.bind_eq_some_iff.1 hq
  rw [follow, follow, hgo] at hp
  split at hp
  · exact ⟨last, p, (Option.some.inj hp).symm, hlast⟩
  · cases hp

namespace Documents

variable {t u : FileTree}

theorem find?_eq (h : t.Documents u) {name : String} (hname : isProjectName name = true) :
    u.find? name = t.find? name := by
  rw [find?, find?, h.directories.place?_eq]
  cases hq : t.place? name with
  | none => rfl
  | some q =>
    obtain ⟨last, p, rfl, hlast⟩ := place?_project hname hq
    rcases h.entry (last :: p) with hentry | ⟨input, r, l, cs, hplace, -⟩
    · exact hentry
    · cases hplace
      rw [isProjectName_outputName] at hlast
      cases hlast

theorem kind_eq (h : t.Documents u) {name : String} (hname : isProjectName name = true) :
    u.kind name = t.kind name := by
  rw [kind, kind, h.find?_eq hname]

theorem read_eq (h : t.Documents u) {name : String} (hname : isProjectName name = true) :
    u.read name = t.read name := by
  rw [read, read, h.find?_eq hname]

end Documents

def projectsAmong (t : FileTree) (directory : String) (names : List String) : List String :=
  ((names.filter isProjectName).map (joinName directory)).filter fun name => t.kind name == .file

def scan (t : FileTree) (directory : String) : Expansion :=
  match t.names directory with
  | none => .refused (.unlistedDirectory directory)
  | some names => .files (t.projectsAmong directory names)

theorem isProjectName_of_mem {t : FileTree} {directory name : String} {names : List String}
    (h : name ∈ t.projectsAmong directory names) : isProjectName name = true := by
  obtain ⟨n, hn, rfl⟩ := List.mem_map.1 (List.mem_filter.1 h).1
  rw [isProjectName_joinName]
  exact (List.mem_filter.1 hn).2

theorem Documents.projectsAmong_eq {t u : FileTree} (h : t.Documents u) (directory : String)
    {names names' : List String}
    (hnames : names'.filter isProjectName = names.filter isProjectName) :
    u.projectsAmong directory names' = t.projectsAmong directory names := by
  rw [projectsAmong, projectsAmong, hnames]
  apply List.filter_congr
  intro name hname
  obtain ⟨n, hn, rfl⟩ := List.mem_map.1 hname
  rw [h.kind_eq ((isProjectName_joinName directory n).trans (List.mem_filter.1 hn).2)]

theorem Documents.scan_eq {t u : FileTree} (h : t.Documents u) (directory : String) :
    u.scan directory = t.scan directory := by
  rw [scan, scan, names, names, h.directories.place?_eq]
  cases t.place? directory with
  | none => rfl
  | some p =>
    rw [Option.bind_some, Option.bind_some, h.directories.isListed]
    cases t.isListed p with
    | false => rfl
    | true => exact congrArg Expansion.files (h.projectsAmong_eq directory (h.projects p))

theorem filterM_run {α : Type} {f : α → StateM FileTree Bool} {p : α → Bool} {t : FileTree}
    (h : ∀ a, (f a).run t = (p a, t)) (as : List α) : (as.filterM f).run t = (as.filter p, t) := by
  have from_kept (kept : List α) :
      (as.filterAuxM f kept).run t = ((as.filter p).reverse ++ kept, t) := by
    induction as generalizing kept with
    | nil => rfl
    | cons a as ih =>
      rw [List.filterAuxM, StateT.run_bind, h]
      change (as.filterAuxM f (cond (p a) (a :: kept) kept)).run t = _
      rw [ih]
      cases hp : p a <;> simp [hp]
  change (List.filterAuxM f as [] >>= _).run t = _
  rw [StateT.run_bind, from_kept, List.append_nil]
  exact congrArg (·, t) (List.reverse_reverse _)

theorem run_isFile (t : FileTree) (name : String) :
    (view.isFile name).run t = (t.kind name == .file, t) := rfl

theorem expand_directory {t : FileTree} {name : String} (h : t.kind name = .directory) :
    (view.expand name).run t = (t.scan name, t) := by
  have kind_run : (view.kind name).run t = (.directory, t) := congrArg (·, t) h
  have names_run : (view.names name).run t = (t.names name, t) := rfl
  rw [View.expand, StateT.run_bind, kind_run]
  change (view.names name >>= _).run t = _
  rw [StateT.run_bind, names_run, scan]
  cases t.names name with
  | none => rfl
  | some names =>
    change (List.filterM view.isFile _ >>= _).run t = _
    rw [StateT.run_bind, filterM_run t.run_isFile]
    rfl

def expansion (t : FileTree) (argument : String) : Expansion :=
  ((view.expand argument).run t).1

theorem expansion_directory {t : FileTree} {name : String} (h : t.kind name = .directory) :
    t.expansion name = t.scan name := congrArg Prod.fst (expand_directory h)

def inputs (t : FileTree) (arguments : List String) : Inputs :=
  ((view.inputs arguments).run t).1

theorem run_inputs (t : FileTree) (arguments : List String) :
    ((view.inputs arguments).run t).1 = t.inputs arguments := rfl

theorem inputs_cons (t : FileTree) (a : String) (as : List String) :
    t.inputs (a :: as) =
      match t.expansion a with
      | .refused cause => ⟨[], [], some cause⟩
      | .unmatched => { t.inputs as with unmatched := a :: (t.inputs as).unmatched }
      | .files names => { t.inputs as with files := names ++ (t.inputs as).files } := by
  rw [inputs, View.inputs, (expand_looks a).run_bind, expansion]
  cases ((view.expand a).run t).1 with
  | refused cause => rfl
  | unmatched =>
    dsimp only
    rw [(inputs_looks as).run_bind]
    rfl
  | files names =>
    dsimp only
    rw [(inputs_looks as).run_bind]
    rfl

section Directories

variable {t : FileTree} {files : List String}

theorem unmatched_directories (h : ∀ f ∈ files, t.kind f = .directory) :
    (t.inputs files).unmatched = [] := by
  induction files with
  | nil => rfl
  | cons f files ih =>
    rw [inputs_cons, expansion_directory (h f List.mem_cons_self), scan]
    cases t.names f with
    | none => rfl
    | some names => exact ih fun g hg => h g (List.mem_cons_of_mem _ hg)

theorem isProjectName_of_mem_inputs (h : ∀ f ∈ files, t.kind f = .directory) {name : String}
    (hname : name ∈ (t.inputs files).files) : isProjectName name = true := by
  induction files with
  | nil => cases hname
  | cons f files ih =>
    rw [inputs_cons, expansion_directory (h f List.mem_cons_self), scan] at hname
    cases hnames : t.names f with
    | none =>
      rw [hnames] at hname
      cases hname
    | some names =>
      rw [hnames] at hname
      rcases List.mem_append.1 hname with hname | hname
      · exact isProjectName_of_mem hname
      · exact ih (fun g hg => h g (List.mem_cons_of_mem _ hg)) hname

end Directories

end FileTree

end DocTree.Command
