import DocTree.Proofs.Command.Directories
import DocTree.Proofs.Command.Projects
import DocTree.Proofs.Command.Sorting

/-!
# A run on directories, and the same again

What a run does to its inputs depends on nothing that it writes: the inputs that directories stand
for are no outputs. So in each tree that differs from the first one in documentation alone the run
writes the same texts to the same places in the same order, and where it has been once nothing
changes any more. Only the options are read from a file of any name.
-/
namespace DocTree.Command

namespace FileTree

def setFiles (t : FileTree) (files : List (Place × String)) : FileTree :=
  files.foldl (fun t f => t.set f.1 (.file (.text f.2))) t

theorem here_setFiles (t : FileTree) (files : List (Place × String)) :
    (t.setFiles files).here = t.here := by
  induction files generalizing t with
  | nil => rfl
  | cons f files ih => exact ih (t.set f.1 (.file (.text f.2)))

theorem closed_setFiles (t : FileTree) (files : List (Place × String)) :
    (t.setFiles files).closed = t.closed := by
  induction files generalizing t with
  | nil => rfl
  | cons f files ih => exact ih (t.set f.1 (.file (.text f.2)))

theorem entries_setFiles (files : List (Place × String)) :
    ∃ written : List (Place × Entry), (∀ e ∈ written, e.1 ∈ files.map (·.1)) ∧
      ∀ t : FileTree, (t.setFiles files).entries =
        t.entries.filter (fun e => e.1 ∉ files.map (·.1)) ++ written := by
  induction files with
  | nil => exact ⟨[], by simp, fun t => by simp [setFiles]⟩
  | cons f files ih =>
    obtain ⟨written, hwritten, hentries⟩ := ih
    refine ⟨[(f.1, Entry.file (.text f.2))].filter (fun e => e.1 ∉ files.map (·.1)) ++ written, ?_,
      fun t => ?_⟩
    · intro e he
      rw [List.map_cons, List.mem_cons]
      rcases List.mem_append.1 he with he | he
      · rw [List.mem_singleton.1 (List.mem_filter.1 he).1]
        exact .inl rfl
      · exact .inr (hwritten e he)
    · have kept (e : Place × Entry) : (decide (e.1 ∉ files.map (·.1)) && (e.1 != f.1)) =
          decide (e.1 ∉ (f :: files).map (·.1)) := by
        rw [Bool.eq_iff_iff]
        simp [and_comm]
      change ((t.set f.1 (.file (.text f.2))).setFiles files).entries = _
      rw [hentries, set, List.filter_append, List.filter_filter, List.append_assoc]
      simp only [kept]

theorem setFiles_again (t : FileTree) (files : List (Place × String)) :
    (t.setFiles files).setFiles files = t.setFiles files := by
  obtain ⟨written, hwritten, hentries⟩ := entries_setFiles files
  have gone : written.filter (fun e => e.1 ∉ files.map (·.1)) = [] := by
    rw [List.filter_eq_nil_iff]
    intro e he
    simpa using hwritten e he
  have entries_eq : ((t.setFiles files).setFiles files).entries = (t.setFiles files).entries := by
    rw [hentries, hentries, List.filter_append, List.filter_filter, gone, List.append_nil]
    simp only [Bool.and_self]
  rw [FileTree.mk.injEq]
  exact ⟨entries_eq, here_setFiles _ files, closed_setFiles _ files⟩

end FileTree

namespace Session

theorem run_writes (s : Session) (t : FileTree) {inputs : List String}
    (h : ∀ input ∈ inputs, isProjectName input = true) :
    ∃ o files, ∀ u, t.Documents u → (s.on u inputs).run = (o, u.setFiles files) := by
  -- Texts and places are found in `t`; no input stands where `u` differs from it.
  induction inputs with
  | nil => exact ⟨.printed "", [], fun u _ => rfl⟩
  | cons input inputs ih =>
    obtain ⟨o, files, hrun⟩ := ih fun i hi => h i (List.mem_cons_of_mem _ hi)
    have converted_eq {u : FileTree} (hu : t.Documents u) :
        s.converted u input = s.converted t input := by
      rw [converted, converted, hu.read_eq (h input List.mem_cons_self)]
    rcases s.converted_cases t input with ⟨fault, hc, -⟩ | ⟨r, hc, -⟩
    · refine ⟨o.after [.skipped input fault], files, fun u hu => ?_⟩
      rw [run_skip ((converted_eq hu).trans hc), hrun u hu]
    · have place_eq {u : FileTree} (hu : t.Documents u) :
          u.writePlace? (s.target input) = t.writePlace? (s.target input) :=
        hu.directories.writePlace?_eq _
      cases hq : t.writePlace? (s.target input) with
      | none =>
        refine ⟨.failed (.unwritten (s.target input)), [], fun u hu => ?_⟩
        rw [run_write ((converted_eq hu).trans hc), FileTree.write_eq, place_eq hu, hq]
        rfl
      | some q =>
        refine ⟨o, (q, s.documentation r) :: files, fun u hu => ?_⟩
        have hq' := (place_eq hu).trans hq
        rw [run_write ((converted_eq hu).trans hc), FileTree.write_eq, hq']
        exact hrun _ (hu.trans (documents_write hq' r))

theorem run_again {s : Session} (h : ∀ input ∈ s.inputs, isProjectName input = true) :
    (s.on s.run.2 s.inputs).run = s.run := by
  obtain ⟨o, files, hrun⟩ := s.run_writes s.start h
  have first : s.run = (o, s.start.setFiles files) := hrun s.start (.refl _)
  have written := s.run_documents s.start s.inputs
  rw [hrun s.run.2 written, first, FileTree.setFiles_again]

end Session

section directories

variable {t u : FileTree} {c : Conversion} {output : String} {files : List String}

theorem FileTree.Documents.inputs_eq (hu : t.Documents u)
    (h : ∀ f ∈ files, t.kind f = .directory) : u.inputs files = t.inputs files := by
  induction files with
  | nil => rfl
  | cons f files ih =>
    have here := h f List.mem_cons_self
    have still := (hu.directories.kind_directory f).2 here
    rw [FileTree.inputs_cons, FileTree.inputs_cons, FileTree.expansion_directory still,
      FileTree.expansion_directory here, hu.scan_eq,
      ih fun g hg => h g (List.mem_cons_of_mem _ hg)]

theorem kind_made (h : ∀ f ∈ files, t.kind f = .directory) :
    ∀ f ∈ files, (t.makeDirectories output).2.kind f = .directory := fun f hf =>
  (t.makeDirectories_grows output).kind_directory (h f hf)

theorem isProjectName_input (h : ∀ f ∈ files, t.kind f = .directory) :
    ∀ input ∈ (Session.ofFiles c t output files).inputs, isProjectName input = true := by
  intro input hinput
  exact FileTree.isProjectName_of_mem_inputs (kind_made h) (mem_of_mem_sortNames hinput)

theorem ofFiles_again (h : ∀ f ∈ files, t.kind f = .directory)
    (hu : (t.makeDirectories output).2.Documents u) :
    Session.ofFiles c u output files =
      (Session.ofFiles c t output files).on u (Session.ofFiles c t output files).inputs := by
  have made := FileTree.makeDirectories_again hu
  have inputs_eq : (Session.ofFiles c u output files).inputs =
      (Session.ofFiles c t output files).inputs := by
    rw [Session.ofFiles, made]
    exact congrArg (fun found => sortNames found.files) (hu.inputs_eq (kind_made h))
  rw [← inputs_eq, Session.ofFiles, made]
  rfl

def directoryRun (c : Conversion) (t : FileTree) (output : String) (files : List String) :
    Outcome × FileTree :=
  let made := t.makeDirectories output
  if made.1 then
    match (made.2.inputs files).refused with
    | some cause => (.failed (.refused cause), made.2)
    | none => (Session.ofFiles c t output files).run
  else (.failed (.uncreatedDirectory output), made.2)

theorem arguments_directories (h : ∀ f ∈ files, t.kind f = .directory) :
    (c.arguments FileTree.disk (some output) files).run t = directoryRun c t output files := by
  have unmatched_eq := FileTree.unmatched_directories (@kind_made t output files h)
  rw [arguments_eq, directoryRun]
  dsimp only
  rw [FileTree.run_inputs, unmatched_eq]
  rfl

theorem directoryRun_documents (c : Conversion) (t : FileTree) (output : String)
    (files : List String) :
    (t.makeDirectories output).2.Documents (directoryRun c t output files).2 := by
  rw [directoryRun]
  split
  · split
    · exact .refl _
    · exact (Session.ofFiles c t output files).run_documents _ _
  · exact .refl _

theorem directoryRun_again (h : ∀ f ∈ files, t.kind f = .directory) :
    directoryRun c (directoryRun c t output files).2 output files =
      directoryRun c t output files := by
  have written := directoryRun_documents c t output files
  have inputs_eq := written.inputs_eq (kind_made h)
  conv_lhs => rw [directoryRun, FileTree.makeDirectories_again written, ofFiles_again h written]
  dsimp only
  rw [inputs_eq]
  cases hmade : (t.makeDirectories output).1 with
  | false =>
    have first : directoryRun c t output files =
        (.failed (.uncreatedDirectory output), (t.makeDirectories output).2) := by
      rw [directoryRun, hmade, if_neg Bool.false_ne_true]
    rw [if_neg Bool.false_ne_true, first]
  | true =>
    rw [if_pos rfl]
    cases hrefused : ((t.makeDirectories output).2.inputs files).refused with
    | some cause =>
      have first : directoryRun c t output files =
          (.failed (.refused cause), (t.makeDirectories output).2) := by
        simp only [directoryRun, hmade, hrefused, if_true]
      rw [first]
    | none =>
      have first : directoryRun c t output files = (Session.ofFiles c t output files).run := by
        simp only [directoryRun, hmade, hrefused, if_true]
      rw [first]
      exact Session.run_again (isProjectName_input h)

end directories

theorem readOptions_congr {t u : FileTree} {options : Option String}
    (h : ∀ file, options = some file → u.read file = t.read file) :
    ((readOptions FileTree.view options).run u).1 =
      ((readOptions FileTree.view options).run t).1 := by
  cases options with
  | none => rfl
  | some file =>
    have read_eq : ((FileTree.view.read file).run u).1 = ((FileTree.view.read file).run t).1 :=
      h file rfl
    rw [readOptions, (FileTree.read_looks file).run_bind, (FileTree.read_looks file).run_bind,
      read_eq]
    cases ((FileTree.view.read file).run t).1 with
    | error cause => rfl
    | ok text =>
      dsimp only
      cases Options.ofText text <;> rfl

theorem conversion_congr {t u : FileTree} {a : Arguments} (hhere : u.here = t.here)
    (h : ∀ file, a.options = some file → u.read file = t.read file) :
    ((conversion FileTree.view a).run u).1 = ((conversion FileTree.view a).run t).1 := by
  rw [conversion, (FileTree.readOptions_looks _).run_bind, (FileTree.readOptions_looks _).run_bind,
    readOptions_congr h]
  cases ((readOptions FileTree.view a.options).run t).1 with
  | error failure => rfl
  | ok o =>
    have here_eq : (FileTree.view.here.run u).1 = (FileTree.view.here.run t).1 :=
      congrArg (fun here => some (FileTree.rootedName here)) hhere
    rw [FileTree.here_looks.run_bind, FileTree.here_looks.run_bind, here_eq]
    cases (FileTree.view.here.run t).1 with
    | none => rfl
    | some here => cases Renderer.ofName? a.rendererName <;> rfl

def FileTree.KeepsFiles (t u : FileTree) : Prop :=
  ∀ name p c, ¬ ".docs.json".toList <:+ name.toList →
    t.entry? (name :: p) = some (.file c) → u.entry? (name :: p) = some (.file c)

def Arguments.FindsSame (a : Arguments) (t u : FileTree) : Prop :=
  ∀ c output, a.output = some output →
    (Session.ofFiles c u output a.files).inputs = (Session.ofFiles c t output a.files).inputs

theorem keepsFiles_directoryRun (c : Conversion) (t : FileTree) (output : String)
    (files : List String) : t.KeepsFiles (directoryRun c t output files).2 := by
  intro name p content hname hfile
  have made := (t.makeDirectories_grows output).entry _ _ hfile
  have written := directoryRun_documents c t output files
  rcases written.entry (name :: p) with hkept | ⟨input, q, l, cs, hplace, -⟩
  · exact hkept.trans made
  · cases hplace
    refine absurd ?_ hname
    rw [outputName, String.toList_append]
    exact List.suffix_append _ _

section repeating

variable {t : FileTree} {input : StateM FileTree (Option String)} {args : List String}
  {a : Arguments}

theorem run_directories {c : Conversion} {output : String}
    (hargs : Request.ofArguments args = some (.convert a)) (hfiles : a.files ≠ [])
    (hdirs : ∀ f ∈ a.files, t.kind f = .directory)
    (hc : ((conversion FileTree.view a).run t).1 = .ok c) (ho : a.output = some output) :
    (run FileTree.disk input args).run t = directoryRun c t output a.files := by
  rw [run_convert hargs hfiles, hc, ho]
  exact arguments_directories hdirs

theorem run_idle (hargs : Request.ofArguments args = some (.convert a)) (hfiles : a.files ≠ [])
    (h : ∀ c output, ((conversion FileTree.view a).run t).1 = .ok c → a.output ≠ some output) :
    ((run FileTree.disk input args).run t).2 = t := by
  rw [run_convert hargs hfiles]
  cases hc : ((conversion FileTree.view a).run t).1 with
  | error failure => rfl
  | ok c =>
    cases ho : a.output with
    | none => rfl
    | some output => exact absurd ho (h c output hc)

/-- A run on directories keeps every file that is not named for documentation. The same run again
finds the same inputs, and unless the options file has changed it ends like the first one, with the
same warnings and the same tree. -/
theorem directory_runs_repeat (hargs : Request.ofArguments args = some (.convert a))
    (hfiles : a.files ≠ []) (hdirs : ∀ f ∈ a.files, t.kind f = .directory) :
    let first : Outcome × FileTree := (run FileTree.disk input args).run t
    let second : Outcome × FileTree := (run FileTree.disk input args).run first.2
    t.KeepsFiles first.2 ∧ a.FindsSame t first.2 ∧
      ((∀ file, a.options = some file → first.2.read file = t.read file) → second = first) := by
  intro first second
  by_cases hidle : ∀ c output, ((conversion FileTree.view a).run t).1 = .ok c →
      a.output ≠ some output
  · have tree_eq : first.2 = t := run_idle hargs hfiles hidle
    refine ⟨?_, ?_, fun _ => ?_⟩
    · rw [tree_eq]
      exact fun _ _ _ _ h => h
    · rw [tree_eq]
      exact fun _ _ _ => rfl
    · exact congrArg (fun u => (run FileTree.disk input args).run u) tree_eq
  · simp only [not_forall, not_not] at hidle
    obtain ⟨c, output, hc, ho⟩ := hidle
    have first_eq : first = directoryRun c t output a.files :=
      run_directories hargs hfiles hdirs hc ho
    have grows := t.makeDirectories_grows output
    have written : (t.makeDirectories output).2.Documents first.2 := by
      rw [first_eq]
      exact directoryRun_documents c t output a.files
    refine ⟨?_, ?_, fun hread => ?_⟩
    · rw [first_eq]
      exact keepsFiles_directoryRun c t output a.files
    · intro c' output' ho'
      rw [ho] at ho'
      cases ho'
      rw [ofFiles_again hdirs written]
      rfl
    · have here_eq : first.2.here = t.here := written.directories.here.trans grows.here
      have still : ∀ f ∈ a.files, first.2.kind f = .directory := fun f hf =>
        (written.directories.kind_directory f).2 (grows.kind_directory (hdirs f hf))
      have second_eq : second = directoryRun c first.2 output a.files :=
        run_directories hargs hfiles still ((conversion_congr here_eq hread).trans hc) ho
      rw [second_eq, first_eq]
      exact directoryRun_again hdirs

end repeating

def optionsText : String :=
  (Json.Value.object [("includeNonExported", .boolean true)]).write .compact

def withOptions (name : String) : FileTree where
  entries :=
    [(["d"], .directory), (["api.json", "d"], .file (.text (interfaceText "A"))),
      ([name, "d"], .file (.text optionsText))]
  here := []

def withOptionsArguments (file : String) : Arguments :=
  { Arguments.none with files := ["d"], output := some "d", options := some file, compact := true }

theorem directory_runs_repeat_withOptions :
    let t := withOptions "options.txt"
    let a := withOptionsArguments "d/options.txt"
    let args := ["-o", "d", "--compact", "--options", "d/options.txt", "d"]
    let first : Outcome × FileTree := (run FileTree.disk (pure none) args).run t
    let second : Outcome × FileTree := (run FileTree.disk (pure none) args).run first.2
    first.1.status = .done ∧ t.KeepsFiles first.2 ∧ a.FindsSame t first.2 ∧ second = first := by
  intro t a args first second
  obtain ⟨kept, found, again⟩ := @directory_runs_repeat t (pure none) args a (by decide +kernel)
    (by decide) (by decide +kernel)
  refine ⟨by decide +kernel, kept, found, again fun file hfile => ?_⟩
  cases hfile
  decide +kernel

/-- Options that stand where documentation is written are gone when the same run comes again. -/
theorem options_overwritten :
    ¬ ∀ (t : FileTree) (input : StateM FileTree (Option String)) (args : List String)
        (a : Arguments),
      Request.ofArguments args = some (.convert a) → a.files ≠ [] →
      (∀ f ∈ a.files, t.kind f = .directory) →
      let first : Outcome × FileTree := (run FileTree.disk input args).run t
      let second : Outcome × FileTree := (run FileTree.disk input args).run first.2
      t.KeepsFiles first.2 ∧ a.FindsSame t first.2 ∧ second.2 = first.2 ∧
        second.1.status.exitCode = first.1.status.exitCode ∧
        second.1.warnings = first.1.warnings := by
  intro h
  obtain ⟨-, -, -, exit_eq, -⟩ := h (withOptions "api.docs.json") (pure none)
    ["-o", "d", "--compact", "--options", "d/api.docs.json", "d"]
    (withOptionsArguments "d/api.docs.json") (by decide +kernel) (by decide) (by decide +kernel)
  revert exit_eq
  decide +kernel

end DocTree.Command
