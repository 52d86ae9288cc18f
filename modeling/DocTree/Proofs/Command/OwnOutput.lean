import DocTree.Proofs.Command.SingleInput

/-!
# Documentation among the inputs

Whatever a run changes in a file tree is a directory that it makes or documentation that it writes,
and documentation is never read as a project. So where a pattern or a name leads to documentation,
from an earlier run or from this one, the run does what it does without that input, and warns of it
once when it comes to it.
-/
namespace DocTree.Command

theorem Outcome.after_after (ws ws' : List Warning) (o : Outcome) :
    (o.after ws').after ws = o.after (ws ++ ws') := by
  simp only [after, List.append_assoc]

theorem category_refusal (cs : List Entry.Container) :
    (Entry.refusal cs).category = .mismatched := by
  cases cs <;> rfl

namespace FileTree

def ShowsDocumentation (t : FileTree) (name : String) : Prop :=
  ∃ l cs, t.read name = .ok (Entry.fileText l cs)

theorem Documents.shows {t u : FileTree} (h : t.Documents u) {name : String}
    (hname : t.ShowsDocumentation name) : u.ShowsDocumentation name := by
  obtain ⟨l, cs, hread⟩ := hname
  rw [read_eq_ok_iff, find?] at hread
  obtain ⟨q, hq, hentry⟩ := Option.bind_eq_some_iff.1 hread
  have place_eq : u.place? name = some q := (h.directories.place?_eq name).trans hq
  rcases h.entry q with kept | ⟨-, -, l', cs', -, written⟩
  · exact ⟨l, cs, read_of_entry place_eq (kept.trans hentry)⟩
  · exact ⟨l', cs', read_of_entry place_eq written⟩

end FileTree

namespace Session

variable {s : Session} {t : FileTree}

theorem run_append {before : List String} (h : (s.on t before).run.1.status = .done)
    (behind : List String) :
    (s.on t (before ++ behind)).run =
      ((s.on (s.on t before).run.2 behind).run.1.after (s.on t before).run.1.warnings,
        (s.on (s.on t before).run.2 behind).run.2) := by
  induction before generalizing t with
  | nil => rfl
  | cons input inputs ih =>
    rw [List.cons_append]
    cases s.visit t input with
    | skip hc hrun =>
      rw [hrun] at h
      rw [hrun, hrun, ih h, Outcome.after_after]
      rfl
    | write hc hdoc hrun =>
      rw [hrun] at h
      rw [hrun, hrun, ih h]
    | refuse hc hrun =>
      rw [hrun] at h
      cases h

theorem run_append_of_ended {before : List String} (h : (s.on t before).run.1.status ≠ .done)
    (behind : List String) : (s.on t (before ++ behind)).run = (s.on t before).run := by
  induction before generalizing t with
  | nil => exact absurd rfl h
  | cons input inputs ih =>
    rw [List.cons_append]
    cases s.visit t input with
    | skip hc hrun =>
      rw [hrun] at h
      rw [hrun, hrun, ih h]
    | write hc hdoc hrun =>
      rw [hrun] at h
      rw [hrun, hrun, ih h]
    | refuse hc hrun => rw [hrun, hrun]

/-- The run does with an input what it does without it. When it comes to the input it warns that
the file is no project, since its data is of the wrong form. -/
structure SetsAside (s : Session) (before : List String) (input : String)
    (behind : List String) : Prop where
  tree : s.run.2 = (s.on s.start (before ++ behind)).run.2
  status : s.run.1.status = (s.on s.start (before ++ behind)).run.1.status
  warning : s.ComesTo before.length → ∃ fault later, Json.Fault.category fault = .mismatched ∧
    s.run.1.warnings = (s.before before.length).run.1.warnings ++
      .skipped input (.notProject fault) :: later ∧
    (s.on s.start (before ++ behind)).run.1.warnings =
      (s.before before.length).run.1.warnings ++ later
  ended : ¬ s.ComesTo before.length → s.run = (s.on s.start (before ++ behind)).run

theorem converted_documentation {input : String} (h : t.ShowsDocumentation input) :
    ∃ cs, s.converted t input = .error (.notProject (Entry.refusal cs)) := by
  obtain ⟨l, cs, hread⟩ := h
  refine ⟨cs, ?_⟩
  rw [converted, hread]
  dsimp only
  rw [Conversion.convert, Entry.ofText_fileText]
  rfl

theorem setsAside_of_shows {before behind : List String} {input : String}
    (hinputs : s.inputs = before ++ input :: behind)
    (h : (s.treeAt before.length).ShowsDocumentation input) : s.SetsAside before input behind := by
  have before_eq : s.before before.length = s.on s.start before := by
    rw [Session.before, hinputs, List.take_left]
    rfl
  have run_eq : s.run = (s.on s.start (before ++ input :: behind)).run := by
    rw [← hinputs]
    rfl
  by_cases hdone : (s.on s.start before).run.1.status = .done
  · have tree_eq : s.treeAt before.length = (s.on s.start before).run.2 :=
      congrArg (fun b => b.run.2) before_eq
    obtain ⟨cs, skipped⟩ := @converted_documentation s _ _ (tree_eq ▸ h)
    rw [run_append hdone, run_skip skipped] at run_eq
    have without := run_append hdone behind
    let later := (s.on (s.on s.start before).run.2 behind).run.1.warnings
    constructor
    · rw [run_eq, without]
    · rw [run_eq, without]
      rfl
    · intro _
      refine ⟨Entry.refusal cs, later, category_refusal cs, ?_, ?_⟩
      · rw [run_eq, before_eq]
        rfl
      · rw [without, before_eq]
        rfl
    · intro ended
      rw [ComesTo, before_eq] at ended
      exact absurd hdone ended
  · have same : s.run = (s.on s.start (before ++ behind)).run := by
      rw [run_eq, run_append_of_ended hdone, run_append_of_ended hdone]
    refine ⟨congrArg (·.2) same, congrArg (·.1.status) same, fun comes => ?_, fun _ => same⟩
    rw [ComesTo, before_eq] at comes
    exact absurd comes hdone

end Session

theorem run_adds (t : FileTree) (console : Option String) (args : List String) (q : Place) :
    let u := ((run FileTree.disk (pure console) args).run t).2
    u.entry? q = t.entry? q ∨ u.entry? q = some .directory ∨
      ∃ l cs, u.entry? q = some (.file (.text (Entry.fileText l cs))) := by
  have made (output : String) :
      FileTree.entry? (t.makeDirectories output).2 q = t.entry? q ∨
        FileTree.entry? (t.makeDirectories output).2 q = some .directory :=
    (t.makeDirectories_made output q).imp_right fun h => h.2.1
  have course := run_course t console args
  intro u
  generalize hfinal : (run FileTree.disk (pure console) args).run t = final at course
  have tree_eq : u = final.2 := congrArg (·.2) hfinal
  clear_value u
  rw [tree_eq]
  cases course with
  | idle => exact .inl rfl
  | prepares => exact (made _).imp_right .inl
  | @converts a s ws _ _ hs _ =>
    rcases (s.run_documents s.start s.inputs).entry q with kept | ⟨-, -, l, cs, -, written⟩
    · have start_eq : s.start.entry? q = FileTree.entry? (t.makeDirectories s.output).2 q :=
        congrArg (FileTree.entry? · q) hs.start_eq
      change FileTree.entry? s.run.2 q = _ at kept
      rw [kept, start_eq]
      exact (made s.output).imp_right .inl
    · exact .inr (.inr ⟨l, cs, written⟩)

/-- Documentation is refused as data of the wrong form, from the standard input and in files, and
documentation is all that a run writes. An input that shows documentation before a run still does
at its turn, and makes no difference to the run but for a warning. -/
theorem own_output_refused :
    (∀ l cs, ∃ fault, Json.Fault.category fault = .mismatched ∧
      Reflection.ofText (Entry.fileText l cs) = .error fault ∧
      ∀ c : Conversion, c.standardInput (some (Entry.fileText l cs)) =
        .failed (.notProject fault)) ∧
    (∀ t console args q,
      let u := ((run FileTree.disk (pure console) args).run t).2
      u.entry? q = t.entry? q ∨ u.entry? q = some .directory ∨
        ∃ l cs, u.entry? q = some (.file (.text (Entry.fileText l cs)))) ∧
    ∀ t a s before input behind, Session.Of t a s → s.inputs = before ++ input :: behind →
      (t.ShowsDocumentation input → (s.treeAt before.length).ShowsDocumentation input) ∧
      ((s.treeAt before.length).ShowsDocumentation input →
        s.SetsAside before input behind) := by
  refine ⟨fun l cs => ?_, fun t console args q => run_adds t console args q,
    fun t a s before input behind hs hinputs => ⟨fun shown => ?_, fun shown => ?_⟩⟩
  · have refused := Entry.ofText_fileText l cs
    refine ⟨Entry.refusal cs, category_refusal cs, refused, fun c => ?_⟩
    rw [Conversion.standardInput, Conversion.convert, refused]
    rfl
  · obtain ⟨l, cs, hread⟩ := shown
    have at_start : s.start.ShowsDocumentation input := by
      rw [hs.start_eq]
      exact ⟨l, cs, (t.makeDirectories_grows s.output).read_eq hread⟩
    exact (s.run_documents s.start _).shows at_start
  · exact Session.setsAside_of_shows hinputs shown

def withDocumentation : FileTree where
  entries :=
    [(["d"], .directory), (["api.json", "d"], .file (.text (interfaceText "A"))),
      (["api.docs.json", "d"], .file (.text (Entry.fileText .compact []))),
      (["old.docs.json", "d"], .file (.text (Entry.fileText .wide [])))]
  here := []

def withDocumentationArguments : Arguments :=
  { Arguments.none with files := ["d/*"], output := some "d", renderer := some "plain" }

theorem own_output_refused_pattern :
    let s := Session.ofFiles ⟨⟨.plain, ⟨false⟩, "/"⟩, .wide⟩ withDocumentation "d" ["d/*"]
    Session.Of withDocumentation withDocumentationArguments s ∧
      s.inputs = ["d/api.docs.json", "d/api.json"] ++ "d/old.docs.json" :: [] ∧
      withDocumentation.ShowsDocumentation "d/old.docs.json" ∧
      s.SetsAside ["d/api.docs.json", "d/api.json"] "d/old.docs.json" [] ∧ s.ComesTo 2 := by
  intro s
  have settled : Session.Of withDocumentation withDocumentationArguments s :=
    ⟨rfl, rfl, rfl⟩
  have found : s.inputs = ["d/api.docs.json", "d/api.json"] ++ "d/old.docs.json" :: [] := by
    decide +kernel
  have shown : withDocumentation.ShowsDocumentation "d/old.docs.json" := ⟨.wide, [], rfl⟩
  obtain ⟨-, -, aside⟩ := own_output_refused
  obtain ⟨still, apart⟩ := aside withDocumentation withDocumentationArguments s _ _ _ settled found
  have comes : s.ComesTo 2 := by
    rw [Session.ComesTo]
    decide +kernel
  exact ⟨settled, found, shown, apart (still shown), comes⟩

end DocTree.Command
