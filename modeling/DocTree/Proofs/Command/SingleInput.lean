import DocTree.Proofs.Command.Effects

/-!
# One project on the standard input and in a file

A project is converted in the same way whether its text comes from the standard input or from a
file. What would be printed is written to the output of the file and to nothing else. A text that is
no project fails the run that reads it from the standard input; the run that finds it in a file
writes nothing, says the same of it in a warning and ends well.
-/
namespace DocTree.Command

namespace FileTree

variable {t : FileTree} {name output text : String}

theorem read_eq_ok_iff : t.read name = .ok text ↔ t.find? name = some (.file (.text text)) := by
  rw [read]
  split <;> simp_all

theorem kind_of_read (h : t.read name = .ok text) : t.kind name = .file := by
  rw [kind, read_eq_ok_iff.1 h]

theorem Grows.read_eq {u : FileTree} (h : t.Grows u) (hread : t.read name = .ok text) :
    u.read name = .ok text := read_eq_ok_iff.2 (h.find?_eq (read_eq_ok_iff.1 hread))

theorem inputs_file (h : t.kind name = .file) :
    (view.inputs [name]).run t = (⟨[name], [], none⟩, t) := by
  have kind_run : (view.kind name).run t = (.file, t) := congrArg (·, t) h
  have expanded : (view.expand name).run t = (.files [name], t) := by
    rw [View.expand, StateT.run_bind, kind_run]
    rfl
  rw [View.inputs, StateT.run_bind, expanded]
  rfl

theorem write_output {input : String} (hdir : t.kind output = .directory)
    (hfree : t.kind (joinName output (outputName input)) ≠ .directory) (text : String) :
    (t.write (joinName output (outputName input)) text).1 = true := by
  obtain ⟨p, hp, hisdir⟩ := kind_directory_iff.1 hdir
  have place_eq : t.place? (joinName output (outputName input)) = some (outputName input :: p) := by
    rw [t.place?_joinName output (outputName_isEntryName input),
      (folder?_eq_some_iff (ne_empty_of_directory hdir)).2 ⟨hp, hisdir⟩, Option.map_some]
  have free : t.isDirectory (outputName input :: p) = false :=
    eq_false_of_ne_true fun h => hfree (kind_directory_iff.2 ⟨_, place_eq, h⟩)
  rw [write, place_eq]
  simp only [hisdir, free, Bool.not_false, Bool.and_self, if_true]

end FileTree

theorem Outcome.after_nil (o : Outcome) : o.after [] = o := rfl

namespace Session

variable {s : Session} {t : FileTree} {input text : String}

theorem run_nil (s : Session) (t : FileTree) : (s.on t []).run = (.printed "", t) := rfl

theorem run_one_skip {fault : InputFault} (h : s.converted t input = .error fault) :
    (s.on t [input]).run = (⟨.done, "", [.skipped input fault]⟩, t) := run_skip h []

theorem run_one_write (h : s.converted t input = .ok text)
    (hwritten : (t.write (s.target input) text).1 = true) :
    (s.on t [input]).run = (.printed "", (t.write (s.target input) text).2) := by
  rw [run_write h, if_pos hwritten, run_nil]

end Session

theorem skipped_message (name : String) (cause : Json.Fault) :
    (Warning.skipped name (.notProject cause)).message =
      Text.terminalText
        ("skipping " ++ name ++ ": " ++ (Failure.notProject cause).message ++ ": " ++
          cause.message) := by
  have messages : (InputFault.notProject cause).messages = [notProjectMessage, cause.message] := rfl
  have failure : (Failure.notProject cause).message = notProjectMessage := rfl
  have joined (first second : String) :
      ": ".intercalate [first, second] = first ++ ": " ++ second := by simp
  rw [Warning.message, messages, failure, joined]
  simp only [String.append_assoc]

section

variable {t : FileTree} {text name output : String} {args args' : List String} {a : Arguments}
  {input : StateM FileTree (Option String)}

theorem run_file {c : Conversion}
    (hargs : Request.ofArguments args =
      some (.convert { a with files := [name], output := some output }))
    (hc : ((conversion FileTree.view a).run t).1 = .ok c) (hread : t.read name = .ok text)
    (hmade : (t.makeDirectories output).1 = true) :
    (run FileTree.disk input args).run t =
      ((⟨c, output, (t.makeDirectories output).2, [name]⟩ : Session).run) := by
  have grown := (t.makeDirectories_grows output).read_eq hread
  have found := FileTree.inputs_file (FileTree.kind_of_read grown)
  have session_eq : Session.ofFiles c t output [name] =
      ⟨c, output, (t.makeDirectories output).2, [name]⟩ := by
    rw [Session.ofFiles, found]
    rfl
  have settled : ((conversion FileTree.view
      { a with files := [name], output := some output }).run t).1 = .ok c := hc
  rw [run_convert hargs (List.cons_ne_nil _ _), settled]
  dsimp only
  rw [arguments_eq]
  dsimp only
  rw [if_pos hmade, session_eq, found]
  dsimp only
  rw [List.map_nil, Outcome.after_nil]

/-- What is printed for a project on the standard input is written to the output of the file that
holds the project. A text that is refused there is skipped here, for the same reason. -/
theorem single_input_agrees (hargs : Request.ofArguments args = some (.convert a))
    (hfiles : a.files = [])
    (hargs' : Request.ofArguments args' =
      some (.convert { a with files := [name], output := some output }))
    (hread : t.read name = .ok text) (hmade : (t.makeDirectories output).1 = true)
    (hfree : (t.makeDirectories output).2.kind (joinName output (outputName name)) ≠ .directory) :
    let printed : Outcome × FileTree := (run FileTree.disk (pure (some text)) args).run t
    let filed : Outcome × FileTree := (run FileTree.disk input args').run t
    let made := (t.makeDirectories output).2
    (printed.1.status.exitCode = 0 →
      filed.1.status.exitCode = 0 ∧ filed.1.warnings = [] ∧
        ∃ p, made.Wrote (joinName output (outputName name)) printed.1.output p filed.2) ∧
    (∀ cause, printed.1.status = .failed (.notProject cause) →
      filed.1.status.exitCode = 0 ∧ filed.2 = made ∧
        filed.1.warnings = [.skipped name (.notProject cause)] ∧
        filed.1.warnings.map Warning.message =
          [Text.terminalText ("skipping " ++ name ++ ": " ++ (Failure.notProject cause).message ++
            ": " ++ cause.message)]) := by
  intro printed filed made
  have printed_eq : printed = _ := run_standardInput hargs hfiles
  cases hc : ((conversion FileTree.view a).run t).1 with
  | error failure =>
    rw [hc] at printed_eq
    rw [printed_eq]
    refine ⟨(fun h => by cases h), fun cause h => ?_⟩
    have unsettled : (Failure.notProject cause).IsUnsettled :=
      Status.failed.inj h ▸ conversion_failure hc
    exact unsettled.elim
  | ok c =>
    have filed_eq : filed = (⟨c, output, made, [name]⟩ : Session).run :=
      run_file hargs' hc hread hmade
    have here : made.read name = .ok text := (t.makeDirectories_grows output).read_eq hread
    have directory : made.kind output = .directory := FileTree.kind_of_made hmade
    change made.kind _ ≠ _ at hfree
    -- From here on it does not matter how the output directory has come about.
    clear_value printed filed made
    let s : Session := ⟨c, output, made, [name]⟩
    have converted_eq : s.converted made name = (c.convert text).mapError .notProject := by
      rw [Session.converted, here]
    rw [hc] at printed_eq
    cases hconvert : c.convert text with
    | error cause =>
      rw [hconvert] at converted_eq
      simp only [Conversion.standardInput, hconvert] at printed_eq
      have skipped : filed = _ := filed_eq.trans (Session.run_one_skip (s := s) converted_eq)
      rw [printed_eq, skipped]
      refine ⟨(fun h => by cases h), fun cause' h => ?_⟩
      cases h
      exact ⟨rfl, rfl, rfl, congrArg ([·]) (skipped_message name cause)⟩
    | ok documentation =>
      rw [hconvert] at converted_eq
      simp only [Conversion.standardInput, hconvert] at printed_eq
      have hwritten := FileTree.write_output directory hfree documentation
      have written : filed =
          (.printed "", (made.write (joinName output (outputName name)) documentation).2) :=
        filed_eq.trans (Session.run_one_write (s := s) converted_eq hwritten)
      have wrote := FileTree.write_spec hwritten
      rw [printed_eq, written]
      generalize made.write (joinName output (outputName name)) documentation = result at wrote
      exact ⟨fun _ => ⟨rfl, rfl, wrote⟩, (fun cause h => by cases h)⟩

end

def oneFile (text : String) : FileTree where
  entries := [(["api.json"], .file (.text text))]
  here := []

theorem single_input_agrees_oneFile :
    let printed (text : String) : Outcome × FileTree :=
      (run FileTree.disk (pure (some text)) ["--compact"]).run (oneFile text)
    let filed (text : String) : Outcome × FileTree :=
      (run FileTree.disk (pure none) ["-o", "out", "--compact", "api.json"]).run (oneFile text)
    let made (text : String) : FileTree := ((oneFile text).makeDirectories "out").2
    let project := interfaceText "A"
    (printed project).1.status.exitCode = 0 ∧ (filed project).1.warnings = [] ∧
      (∃ p, (made project).Wrote "out/api.docs.json" (printed project).1.output p
        (filed project).2) ∧
      (printed "nope").1.status = .failed (.notProject (.malformed .wordExpected)) ∧
      (filed "nope").2 = made "nope" ∧
      (filed "nope").1.warnings =
        [.skipped "api.json" (.notProject (.malformed .wordExpected))] := by
  intro printed filed made project
  have agrees (text : String) :=
    @single_input_agrees (oneFile text) text "api.json" "out" ["--compact"]
      ["-o", "out", "--compact", "api.json"] { Arguments.none with compact := true } (pure none)
      (by decide +kernel) rfl (by decide +kernel) rfl rfl
  have done : (printed project).1.status.exitCode = 0 := by decide +kernel
  have refused : (printed "nope").1.status = .failed (.notProject (.malformed .wordExpected)) := by
    decide +kernel
  obtain ⟨-, unwarned, wrote⟩ := (agrees project (by decide +kernel)).1 done
  obtain ⟨-, tree_eq, warned, -⟩ := (agrees "nope" (by decide +kernel)).2 _ refused
  exact ⟨done, unwarned, wrote, refused, tree_eq, warned⟩

end DocTree.Command
