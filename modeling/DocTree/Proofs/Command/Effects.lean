import DocTree.Proofs.Command.Directories
import DocTree.Proofs.Command.Skipping

/-!
# What a run may change

A run changes a file tree in two ways only. It makes the directories on the way to the output
directory, and it writes the outputs of inputs that it has decoded, each a file directly in that
directory. Inputs come in turn, so a run that ends because an output can not be written leaves the
tree as it is once all inputs before that one have had their turn. Everything that fails earlier
fails before anything is written, and nothing that fails is printed.
-/
namespace DocTree.Command

namespace FileTree

def OnWay (t : FileTree) (name : String) (q : Place) : Prop :=
  ∃ parts, parts <+: nameParts name ∧ q = parts.foldl go (t.start name)

theorem makeAlong_made (t : FileTree) (p : Place) (parts : List String) (q : Place) :
    entry? (t.makeAlong p parts).2 q = t.entry? q ∨
      t.entry? q = none ∧ entry? (t.makeAlong p parts).2 q = some .directory ∧
        ∃ before, before <+: parts ∧ q = before.foldl go p := by
  induction parts generalizing t p with
  | nil => exact .inl rfl
  | cons part parts ih =>
    have behind {before : List String} (h : before <+: parts)
        (hq : q = before.foldl go (go p part)) :
        ∃ before, before <+: part :: parts ∧ q = before.foldl go p :=
      ⟨part :: before, List.cons_prefix_cons.2 ⟨rfl, h⟩, hq⟩
    rw [makeAlong]
    cases hentry : t.entry? (go p part) with
    | some e =>
      cases e with
      | file c => exact .inl rfl
      | directory =>
        refine (ih t (go p part)).imp_right ?_
        rintro ⟨hnone, hmade, before, hbefore, hq⟩
        exact ⟨hnone, hmade, behind hbefore hq⟩
    | none =>
      have hne : go p part ≠ [] := by
        intro h
        rw [h] at hentry
        cases hentry
      have entry_eq := entry?_set hne t .directory q
      by_cases hq : q = go p part
      · have made : entry? (t.set (go p part) .directory) q = some .directory := by
          rw [entry_eq, if_pos hq]
        refine .inr ⟨hq ▸ hentry, ?_, behind (List.nil_prefix) hq⟩
        exact (makeAlong_grows _ _ _).entry q _ made
      · rw [if_neg hq] at entry_eq
        rw [← entry_eq]
        refine (ih _ (go p part)).imp_right ?_
        rintro ⟨hnone, hmade, before, hbefore, hq⟩
        exact ⟨hnone, hmade, behind hbefore hq⟩

theorem madeParts_initial (parts : List String) : madeParts parts <+: parts := by
  unfold madeParts
  split
  · rename_i before heq
    have shorter : ((before.dropWhile fun p => p == "" || p == ".").drop 1) <:+ parts.reverse :=
      (List.drop_suffix _ _).trans ((List.dropWhile_suffix _).trans
        ((List.suffix_cons _ _).trans (heq ▸ List.dropWhile_suffix _)))
    rw [← List.reverse_suffix, List.reverse_reverse]
    exact shorter
  · exact List.prefix_rfl

theorem makeDirectories_made (t : FileTree) (name : String) (q : Place) :
    entry? (t.makeDirectories name).2 q = t.entry? q ∨
      t.entry? q = none ∧ entry? (t.makeDirectories name).2 q = some .directory ∧
        t.OnWay name q := by
  refine (t.makeAlong_made (t.start name) (madeParts (nameParts name)) q).imp_right ?_
  rintro ⟨hnone, hmade, parts, hparts, hq⟩
  exact ⟨hnone, hmade, parts, hparts.trans (madeParts_initial _), hq⟩

theorem kind_of_made {t : FileTree} {name : String} (h : (t.makeDirectories name).1 = true) :
    (t.makeDirectories name).2.kind name = .directory := by
  rw [makeDirectories, Bool.and_eq_true, beq_iff_eq] at h
  exact h.2

theorem ne_empty_of_directory {t : FileTree} {name : String} (h : t.kind name = .directory) :
    name ≠ "" := by
  rintro rfl
  cases h

end FileTree

namespace Session

def ComesTo (s : Session) (i : Nat) : Prop := (s.before i).run.1.status = .done

theorem run_output (s : Session) (t : FileTree) (inputs : List String) :
    (s.on t inputs).run.1.output = "" := by
  induction inputs generalizing t with
  | nil => rfl
  | cons input inputs ih =>
    cases s.visit t input with
    | skip hc hrun =>
      rw [hrun]
      exact ih t
    | write hc hdoc hrun =>
      rw [hrun]
      exact ih _
    | refuse hc hrun => rw [hrun]; rfl

/-- Where a run ends: behind all inputs, or at one that it has decoded but can not write. -/
inductive Stop (s : Session) (n : Nat) : Status → Prop
  | finished : s.inputs.length ≤ n → Stop s n .done
  | refused {input : String} {r : Reflection} : s.Decodes n input r →
      Stop s n (.failed (.unwritten (s.target input)))

theorem Stop.succ {s : Session} {t u : FileTree} {input : String} {inputs : List String} {n : Nat}
    {status : Status} (htree : ∀ rest, (s.on t (input :: rest)).run.2 = (s.on u rest).run.2)
    (h : Stop (s.on u inputs) n status) : Stop (s.on t (input :: inputs)) (n + 1) status := by
  cases h with
  | finished hn => exact .finished (Nat.succ_le_succ hn)
  | refused hd => exact .refused ((decodes_succ htree).2 hd)

theorem run_stops (s : Session) (t : FileTree) (inputs : List String) :
    ∃ n, (s.on t inputs).ComesTo n ∧ (s.on t inputs).run.2 = (s.on t inputs).treeAt n ∧
      Stop (s.on t inputs) n (s.on t inputs).run.1.status := by
  induction inputs generalizing t with
  | nil => exact ⟨0, rfl, rfl, .finished (Nat.le_refl _)⟩
  | cons input inputs ih =>
    -- One input more is behind the run when its turn leads from `t` to `u`.
    have later (u : FileTree)
        (htree : ∀ rest, (s.on t (input :: rest)).run.2 = (s.on u rest).run.2)
        (hstatus : ∀ rest,
          (s.on t (input :: rest)).run.1.status = (s.on u rest).run.1.status) :
        ∃ n, (s.on t (input :: inputs)).ComesTo n ∧
          (s.on t (input :: inputs)).run.2 = (s.on t (input :: inputs)).treeAt n ∧
          Stop (s.on t (input :: inputs)) n (s.on t (input :: inputs)).run.1.status := by
      obtain ⟨n, comes, tree_eq, stop⟩ := ih u
      refine ⟨n + 1, (hstatus (inputs.take n)).trans comes, ?_, ?_⟩
      · rw [htree inputs, tree_eq]
        exact (htree (inputs.take n)).symm
      · rw [hstatus inputs]
        exact stop.succ htree
    cases s.visit t input with
    | skip hc hrun => exact later t (fun rest => by rw [hrun]) fun rest => by rw [hrun]; rfl
    | @write text u hc hdoc hrun =>
      exact later u (fun rest => by rw [hrun]) fun rest => by rw [hrun]
    | refuse hc hrun =>
      refine ⟨0, rfl, by rw [hrun]; rfl, ?_⟩
      rcases s.converted_cases t input with ⟨fault, hfault, -⟩ | ⟨r, -, hr⟩
      · rw [hc] at hfault
        cases hfault
      · rw [hrun]
        exact .refused (decodes_zero.2 ⟨rfl, hr⟩)

theorem settles_treeAt {s : Session} {n : Nat} (h : s.ComesTo n) :
    (s.before n).Settles (s.treeAt n) := settles_of_done (s := s) h

theorem comesTo_mono {s : Session} {t : FileTree} {inputs : List String} {i n : Nat}
    (h : (s.on t inputs).ComesTo n) (hin : i ≤ n) : (s.on t inputs).ComesTo i := by
  induction inputs generalizing t i n with
  | nil => cases i <;> rfl
  | cons input inputs ih =>
    cases i with
    | zero => rfl
    | succ i =>
      obtain ⟨n, rfl⟩ : ∃ k, n = k + 1 := ⟨n - 1, by omega⟩
      obtain ⟨u, -, hrest⟩ := @turn_of_done s t input (inputs.take n) h
      have rest_done : (s.on u inputs).ComesTo n := (hrest (inputs.take n)).2.symm.trans h
      exact (hrest (inputs.take i)).2.trans (ih rest_done (Nat.le_of_succ_le_succ hin))

theorem decodes_before {s : Session} {n i : Nat} {input : String} {r : Reflection}
    (h : s.ComesTo n) (hd : (s.before n).Decodes i input r) :
    s.ComesTo i ∧ s.Decodes i input r := by
  obtain ⟨hinput, hr⟩ := hd
  change (s.inputs.take n)[i]? = some input at hinput
  have hin : i < n := by
    have := (List.getElem?_eq_some_iff.1 hinput).1
    rw [List.length_take] at this
    omega
  have tree_eq : (s.before n).treeAt i = s.treeAt i := by
    rw [treeAt, treeAt, before]
    simp only [List.take_take, Nat.min_eq_left (Nat.le_of_lt hin)]
  rw [tree_eq] at hr
  rw [List.getElem?_take_of_lt hin] at hinput
  exact ⟨comesTo_mono (s := s) h (Nat.le_of_lt hin), hinput, hr⟩

theorem Settles.exists_last {s : Session} {final : FileTree} (h : s.Settles final) {i : Nat}
    {input : String} {r : Reflection} {q : Place} (hd : s.Decodes i input r)
    (hq : s.start.place? (s.target input) = some q) :
    ∃ i input r, s.Decodes i input r ∧ s.start.place? (s.target input) = some q ∧
      final.entry? q = some (.file (.text (s.documentation r))) := by
  by_cases hlater : ∃ j input' r', i < j ∧ s.Decodes j input' r' ∧
      s.start.place? (s.target input') = some q
  · obtain ⟨j, input', r', hij, hj, hq'⟩ := hlater
    have bound : j < s.inputs.length := (List.getElem?_eq_some_iff.1 hj.1).1
    exact h.exists_last hj hq'
  · refine ⟨i, input, r, hd, hq, h.last i input r q hd hq fun j input' r' hij hj hq' => ?_⟩
    exact hlater ⟨j, input', r', hij, hj, hq'⟩
termination_by s.inputs.length - i

theorem run_changes (s : Session) (hne : s.output ≠ "") (q : Place) :
    FileTree.entry? s.run.2 q = s.start.entry? q ∨
      ∃ i input r folder, s.ComesTo i ∧ s.Decodes i input r ∧
        s.run.2.place? s.output = some folder ∧ s.run.2.isDirectory folder = true ∧
        q = outputName input :: folder ∧
        FileTree.entry? s.run.2 q = some (.file (.text (s.documentation r))) := by
  obtain ⟨n, comes, tree_eq, -⟩ := s.run_stops s.start s.inputs
  have settles : (s.before n).Settles s.run.2 := by
    rw [show s.run.2 = s.treeAt n from tree_eq]
    exact settles_treeAt comes
  by_cases hwritten : ∃ i input r, (s.before n).Decodes i input r ∧
      s.start.place? (s.target input) = some q
  · obtain ⟨i, input, r, hd, hq⟩ := hwritten
    obtain ⟨i, input, r, hd, hq, hentry⟩ := settles.exists_last hd hq
    obtain ⟨hi, hr⟩ := decodes_before comes hd
    have place_eq : s.start.place? (s.target input) = some q := hq
    rw [target_place] at place_eq
    obtain ⟨folder, hfolder, hname⟩ := Option.map_eq_some_iff.1 place_eq
    obtain ⟨hplace, hdir⟩ := (FileTree.folder?_eq_some_iff hne).1 hfolder
    have directories : s.start.SameDirectories s.run.2 := settles.directories
    refine .inr ⟨i, input, r, folder, hi, hr, ?_, ?_, hname.symm, hentry⟩
    · rw [directories.place?_eq, hplace]
    · rw [directories.isDirectory, hdir]
  · refine .inl (settles.frame q fun i input r hd hq => ?_)
    exact hwritten ⟨i, input, r, hd, hq⟩

end Session

def Failure.IsUnsettled : Failure → Prop
  | unreadableOptions _ _ | malformedOptions _ _ | noWorkingDirectory | unknownRenderer _ => True
  | _ => False

theorem readOptions_failure {t : FileTree} {options : Option String} {failure : Failure}
    (h : ((readOptions FileTree.view options).run t).1 = .error failure) : failure.IsUnsettled := by
  cases options with
  | none => cases h
  | some name =>
    rw [readOptions, (FileTree.read_looks name).run_bind] at h
    cases hread : ((FileTree.view.read name).run t).1 with
    | error cause =>
      rw [hread] at h
      cases h
      trivial
    | ok text =>
      rw [hread] at h
      dsimp only at h
      cases hoptions : Options.ofText text with
      | error cause =>
        rw [hoptions] at h
        cases h
        trivial
      | ok o =>
        rw [hoptions] at h
        cases h

theorem conversion_failure {t : FileTree} {a : Arguments} {failure : Failure}
    (h : ((conversion FileTree.view a).run t).1 = .error failure) : failure.IsUnsettled := by
  rw [conversion, (FileTree.readOptions_looks _).run_bind] at h
  cases hoptions : ((readOptions FileTree.view a.options).run t).1 with
  | error failure' =>
    rw [hoptions] at h
    cases h
    exact readOptions_failure hoptions
  | ok o =>
    rw [hoptions] at h
    dsimp only at h
    rw [FileTree.here_looks.run_bind] at h
    cases hhere : (FileTree.view.here.run t).1 with
    | none =>
      rw [hhere] at h
      cases h
      trivial
    | some here =>
      rw [hhere] at h
      dsimp only at h
      cases hrenderer : Renderer.ofName? a.rendererName with
      | none =>
        rw [hrenderer] at h
        cases h
        trivial
      | some renderer =>
        rw [hrenderer] at h
        cases h

/-- A run leaves the tree as it is, or makes the output directory and fails, or goes through its
inputs. -/
inductive Course (t : FileTree) (args : List String) : Outcome × FileTree → Prop
  | idle {o : Outcome} : (o.status.exitCode ≠ 0 → o.output = "") →
      (∀ file, o.status ≠ .failed (.unwritten file)) → Course t args (o, t)
  | prepares {a : Arguments} {output : String} {failure : Failure} {ws : List Warning} :
      Request.ofArguments args = some (.convert a) → a.files ≠ [] → a.output = some output →
      (∀ file, failure ≠ .unwritten file) →
      Course t args ((Outcome.failed failure).after ws, (t.makeDirectories output).2)
  | converts {a : Arguments} {s : Session} {ws : List Warning} :
      Request.ofArguments args = some (.convert a) → a.files ≠ [] → Session.Of t a s →
      (t.makeDirectories s.output).1 = true → Course t args (s.run.1.after ws, s.run.2)

theorem course_of_failed {t : FileTree} {args : List String} {failure : Failure}
    (h : ∀ file, failure ≠ .unwritten file) : Course t args (.failed failure, t) :=
  .idle (fun _ => rfl) fun file hfile => h file (Status.failed.inj hfile)

theorem course_of_unsettled {t : FileTree} {args : List String} {failure : Failure}
    (h : failure.IsUnsettled) : Course t args (.failed failure, t) := by
  refine course_of_failed ?_
  rintro file rfl
  exact h

theorem run_course (t : FileTree) (console : Option String) (args : List String) :
    Course t args ((run FileTree.disk (pure console) args).run t) := by
  cases hargs : Request.ofArguments args with
  | none =>
    rw [run, hargs]
    exact .idle (fun _ => rfl) fun _ h => by cases h
  | some request =>
    cases request with
    | help =>
      rw [run, hargs]
      exact .idle (fun h => absurd rfl h) fun _ h => by cases h
    | convert a =>
      by_cases hfiles : a.files = []
      · rw [run_standardInput hargs hfiles]
        cases hc : ((conversion FileTree.view a).run t).1 with
        | error failure => exact course_of_unsettled (conversion_failure hc)
        | ok c =>
          cases console with
          | none => exact course_of_failed fun _ h => by cases h
          | some text =>
            dsimp only [Conversion.standardInput]
            cases c.convert text with
            | error cause => exact course_of_failed fun _ h => by cases h
            | ok s => exact .idle (fun h => absurd rfl h) fun _ h => by cases h
      · rw [run_convert hargs hfiles]
        cases hc : ((conversion FileTree.view a).run t).1 with
        | error failure => exact course_of_unsettled (conversion_failure hc)
        | ok c =>
          cases ho : a.output with
          | none => exact course_of_failed fun _ h => by cases h
          | some output =>
            dsimp only
            rw [arguments_eq]
            dsimp only
            split
            · rename_i hmade
              split
              · exact .prepares hargs hfiles ho fun _ h => by cases h
              · exact .converts hargs hfiles ⟨hc, ho, rfl⟩ hmade
            · exact @Course.prepares _ _ a output _ [] hargs hfiles ho fun _ h => by cases h

def MakesDirectory (t u : FileTree) (args : List String) (q : Place) : Prop :=
  t.entry? q = none ∧ u.entry? q = some .directory ∧
    ∃ a output, Request.ofArguments args = some (.convert a) ∧ a.files ≠ [] ∧
      a.output = some output ∧ t.OnWay output q

def WritesOutput (t u : FileTree) (args : List String) (q : Place) : Prop :=
  ∃ a s i input r folder, Request.ofArguments args = some (.convert a) ∧ a.files ≠ [] ∧
    Session.Of t a s ∧ s.ComesTo i ∧ s.Decodes i input r ∧
    u.place? s.output = some folder ∧ u.isDirectory folder = true ∧
    q = outputName input :: folder ∧ u.entry? q = some (.file (.text (s.documentation r)))

/-- What a run on some arguments may have done to a file tree. -/
structure Confined (t : FileTree) (args : List String) (o : Outcome) (u : FileTree) : Prop where
  standardInput : ∀ a, Request.ofArguments args = some (.convert a) → a.files = [] → u = t
  silent : o.status.exitCode ≠ 0 → o.output = ""
  early : o.status.exitCode ≠ 0 → (∀ file, o.status ≠ .failed (.unwritten file)) →
    ∀ q, u.entry? q = t.entry? q ∨ MakesDirectory t u args q
  changes : ∀ q, u.entry? q = t.entry? q ∨ MakesDirectory t u args q ∨ WritesOutput t u args q
  closed : u.closed = t.closed
  refused : ∀ file, o.status = .failed (.unwritten file) →
    ∃ a s n input r, Request.ofArguments args = some (.convert a) ∧ Session.Of t a s ∧
      s.ComesTo n ∧ s.Decodes n input r ∧ file = s.target input ∧ (s.before n).Settles u

theorem Session.Of.start_eq {t : FileTree} {a : Arguments} {s : Session} (h : Session.Of t a s) :
    s.start = (t.makeDirectories s.output).2 := congrArg Session.start h.files

/-- A run changes no more than the output directory and the outputs in it, and a run that fails
leaves either nothing behind or the outputs of the inputs before the one that can not be written. -/
theorem run_confined (t : FileTree) (console : Option String) (args : List String) :
    let final : Outcome × FileTree := (run FileTree.disk (pure console) args).run t
    Confined t args final.1 final.2 := by
  intro final
  have course : Course t args final := run_course t console args
  generalize final = final at course
  cases course with
  | idle hsilent hwritten =>
    exact ⟨fun _ _ _ => rfl, hsilent, fun _ _ _ => .inl rfl, fun _ => .inl rfl, rfl,
      fun file h => absurd h (hwritten file)⟩
  | @prepares a output failure ws hargs hfiles ho hwritten =>
    have made (q : Place) : FileTree.entry? (t.makeDirectories output).2 q = t.entry? q ∨
        MakesDirectory t (t.makeDirectories output).2 args q := by
      refine (t.makeDirectories_made output q).imp_right ?_
      rintro ⟨hnone, hmade, hway⟩
      exact ⟨hnone, hmade, a, output, hargs, hfiles, ho, hway⟩
    refine ⟨fun a' hargs' hfiles' => ?_, fun _ => rfl, fun _ _ q => made q,
      fun q => (made q).imp_right .inl, (t.makeDirectories_grows output).closed, fun file h => ?_⟩
    · rw [hargs] at hargs'
      cases hargs'
      exact absurd hfiles' hfiles
    · exact absurd (Status.failed.inj h) (hwritten file)
  | @converts a s ws hargs hfiles hs hmade =>
    obtain ⟨n, comes, tree_eq, stop⟩ := s.run_stops s.start s.inputs
    have status_eq : (s.run.1.after ws).status = s.run.1.status := rfl
    have made (q : Place) (hq : FileTree.entry? s.run.2 q = s.start.entry? q) :
        FileTree.entry? s.run.2 q = t.entry? q ∨ MakesDirectory t s.run.2 args q := by
      rw [hs.start_eq] at hq
      rw [MakesDirectory, hq]
      refine (t.makeDirectories_made s.output q).imp_right ?_
      rintro ⟨hnone, hentry, hway⟩
      exact ⟨hnone, hentry, a, s.output, hargs, hfiles, hs.output, hway⟩
    have closed_eq : FileTree.closed s.run.2 = t.closed := by
      have grown := (t.makeDirectories_grows s.output).closed
      rw [← hs.start_eq] at grown
      exact (s.run_documents s.start s.inputs).directories.closed.trans grown
    refine ⟨fun a' hargs' hfiles' => ?_, fun _ => s.run_output s.start s.inputs, ?_, fun q => ?_,
      closed_eq, ?_⟩
    · rw [hargs] at hargs'
      cases hargs'
      exact absurd hfiles' hfiles
    · intro hexit hwritten
      change Session.Stop s n s.run.1.status at stop
      rw [status_eq] at hexit hwritten
      generalize s.run.1.status = status at stop hexit hwritten
      cases stop with
      | finished => exact absurd rfl hexit
      | refused => exact absurd rfl (hwritten _)
    · have named := FileTree.ne_empty_of_directory (FileTree.kind_of_made hmade)
      rcases s.run_changes named q with
        hq | ⟨i, input, r, folder, hi, hr, hplace, hdir, hname, hentry⟩
      · exact (made q hq).imp_right .inl
      · exact .inr (.inr ⟨a, s, i, input, r, folder, hargs, hfiles, hs, hi, hr, hplace, hdir, hname,
          hentry⟩)
    · intro file hfile
      change Session.Stop s n s.run.1.status at stop
      rw [status_eq] at hfile
      rw [hfile] at stop
      cases stop with
      | refused hr =>
        have settles : (s.before n).Settles s.run.2 := by
          rw [show s.run.2 = s.treeAt n from tree_eq]
          exact Session.settles_treeAt comes
        exact ⟨a, s, n, _, _, hargs, hs, comes, hr, rfl, settles⟩

end DocTree.Command
