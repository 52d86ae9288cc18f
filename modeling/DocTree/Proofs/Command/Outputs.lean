import DocTree.Proofs.Command.Looking
import DocTree.Proofs.Command.Target

/-!
# What becomes of the outputs

A run in file mode comes to its inputs in turn. At its turn an input is skipped, or
it is read and decoded and its documentation written. The name of the output is
made from the stem of the input alone, so a later input with the same stem writes
over what an earlier one has written. Each output therefore holds the documentation
of the last project decoded for it, and nothing is lost exactly when the inputs that
share a stem hold the same project.
-/
namespace DocTree.Command

structure Session where
  conversion : Conversion
  output : String
  start : FileTree
  inputs : List String

namespace Session

def ofFiles (c : Conversion) (t : FileTree) (output : String) (files : List String) : Session where
  conversion := c
  output := output
  start := (t.makeDirectories output).2
  inputs := sortNames ((FileTree.view.inputs files).run (t.makeDirectories output).2).1.files

structure Of (t : FileTree) (a : Arguments) (s : Session) : Prop where
  conversion : ((Command.conversion FileTree.view a).run t).1 = .ok s.conversion
  output : a.output = some s.output
  files : s = ofFiles s.conversion t s.output a.files

def run (s : Session) : Outcome × FileTree :=
  (s.conversion.files FileTree.disk s.output s.inputs).run s.start

def treeAt (s : Session) (i : Nat) : FileTree := { s with inputs := s.inputs.take i }.run.2

def target (s : Session) (input : String) : String := joinName s.output (outputName input)

def documentation (s : Session) (r : Reflection) : String :=
  Entry.fileText s.conversion.layout (s.conversion.settings.project r)

end Session

def FileTree.Holds (t : FileTree) (name : String) (r : Reflection) : Prop :=
  ∃ text, t.read name = .ok text ∧ Reflection.ofText text = .ok r

theorem FileTree.Holds.unique {t : FileTree} {name : String} {r r' : Reflection}
    (h : t.Holds name r) (h' : t.Holds name r') : r = r' := by
  obtain ⟨text, htext, hr⟩ := h
  obtain ⟨text', htext', hr'⟩ := h'
  rw [htext] at htext'
  cases htext'
  exact Except.ok.inj (hr.symm.trans hr')

namespace Session

def Decodes (s : Session) (i : Nat) (input : String) (r : Reflection) : Prop :=
  s.inputs[i]? = some input ∧ (s.treeAt i).Holds input r

/-- No output is lost: the output of every input that was decoded holds the documentation of its
project, and different projects have different files. -/
structure Keeps (s : Session) (final : FileTree) : Prop where
  held : ∀ i input r, s.Decodes i input r →
    final.read (s.target input) = .ok (s.documentation r)
  apart : ∀ i j input input' r r', s.Decodes i input r → s.Decodes j input' r' → r ≠ r' →
    final.place? (s.target input) ≠ final.place? (s.target input')

inductive Turn (s : Session) (t : FileTree) (input : String) : FileTree → Prop
  | skip : (∀ r, ¬ t.Holds input r) → Turn s t input t
  | write {r : Reflection} {p : Place} {u : FileTree} : t.Holds input r →
      t.Wrote (s.target input) (s.documentation r) p u → Turn s t input u

def converted (s : Session) (t : FileTree) (input : String) : Except InputFault String :=
  match t.read input with
  | .error cause => .error (.unreadable input cause)
  | .ok text => (s.conversion.convert text).mapError .notProject

theorem file_run (s : Session) (t : FileTree) (input : String) :
    (s.conversion.file FileTree.view input).run t = (s.converted t input, t) := by
  have read_run : (FileTree.view.read input).run t = (t.read input, t) := rfl
  rw [Conversion.file, StateT.run_bind, read_run, converted]
  cases t.read input <;> rfl

theorem converted_cases (s : Session) (t : FileTree) (input : String) :
    (∃ fault, s.converted t input = .error fault ∧ ∀ r, ¬ t.Holds input r) ∨
      ∃ r, s.converted t input = .ok (s.documentation r) ∧ t.Holds input r := by
  unfold converted FileTree.Holds
  cases hread : t.read input with
  | error cause => exact .inl ⟨_, rfl, by simp⟩
  | ok text =>
    simp only [Conversion.convert]
    cases hr : Reflection.ofText text with
    | error cause =>
      refine .inl ⟨_, rfl, ?_⟩
      rintro r ⟨text', htext, hr'⟩
      cases htext
      rw [hr] at hr'
      cases hr'
    | ok r => exact .inr ⟨r, rfl, text, rfl, hr⟩

def on (s : Session) (t : FileTree) (inputs : List String) : Session :=
  { s with start := t, inputs := inputs }

theorem run_on (s : Session) (t : FileTree) (inputs : List String) :
    (s.on t inputs).run = (s.conversion.files FileTree.disk s.output inputs).run t := rfl

theorem run_skip {s : Session} {t : FileTree} {input : String} {fault : InputFault}
    (h : s.converted t input = .error fault) (inputs : List String) :
    (s.on t (input :: inputs)).run =
      ((s.on t inputs).run.1.after [.skipped input fault], (s.on t inputs).run.2) := by
  rw [run_on, Conversion.files, StateT.run_bind, file_run, h]
  rfl

theorem disk_write_run (t : FileTree) (name text : String) :
    (FileTree.disk.write name text).run t = t.write name text := rfl

theorem run_write {s : Session} {t : FileTree} {input text : String}
    (h : s.converted t input = .ok text) (inputs : List String) :
    (s.on t (input :: inputs)).run =
      if (t.write (s.target input) text).1 then
        (s.on (t.write (s.target input) text).2 inputs).run
      else (.failed (.unwritten (s.target input)), (t.write (s.target input) text).2) := by
  rw [run_on, Conversion.files, StateT.run_bind, file_run, h]
  change (FileTree.disk.write (s.target input) text >>= _).run t = _
  rw [StateT.run_bind, disk_write_run]
  generalize t.write (s.target input) text = w
  obtain ⟨written, u⟩ := w
  cases written with
  | false => rfl
  | true => rfl

theorem turn_of_done {s : Session} {t : FileTree} {input : String} {inputs : List String}
    (h : (s.on t (input :: inputs)).run.1.status = .done) :
    ∃ u, Turn s t input u ∧ ∀ rest,
      (s.on t (input :: rest)).run.2 = (s.on u rest).run.2 ∧
        (s.on t (input :: rest)).run.1.status = (s.on u rest).run.1.status := by
  rcases s.converted_cases t input with ⟨fault, hc, hnone⟩ | ⟨r, hc, hr⟩
  · exact ⟨t, .skip hnone, fun rest => by rw [run_skip hc]; exact ⟨rfl, rfl⟩⟩
  · cases hw : (t.write (s.target input) (s.documentation r)).1 with
    | false =>
      rw [run_write hc, hw, if_neg Bool.false_ne_true] at h
      cases h
    | true =>
      obtain ⟨p, wrote⟩ := FileTree.write_spec hw
      exact ⟨_, .write hr wrote, fun rest => by rw [run_write hc, hw, if_pos rfl]; exact ⟨rfl, rfl⟩⟩

theorem decodes_zero {s : Session} {t : FileTree} {input : String} {inputs : List String}
    {input' : String} {r : Reflection} :
    (s.on t (input :: inputs)).Decodes 0 input' r ↔ input = input' ∧ t.Holds input' r := by
  have start : (s.on t (input :: inputs)).treeAt 0 = t := rfl
  rw [Decodes, start]
  exact and_congr_left' Option.some_inj

/-- What a session has made of its decoded inputs when it ends with a tree. -/
structure Settles (s : Session) (final : FileTree) : Prop where
  directories : s.start.SameDirectories final
  place : ∀ i input r, s.Decodes i input r → ∃ p, s.start.place? (s.target input) = some p
  frame : ∀ q, (∀ i input r, s.Decodes i input r → s.start.place? (s.target input) ≠ some q) →
    final.entry? q = s.start.entry? q
  last : ∀ i input r q, s.Decodes i input r → s.start.place? (s.target input) = some q →
    (∀ j input' r', i < j → s.Decodes j input' r' →
      s.start.place? (s.target input') ≠ some q) →
    final.entry? q = some (.file (.text (s.documentation r)))

theorem settles_nil (s : Session) (t : FileTree) : (s.on t []).Settles t := by
  have nothing (i : Nat) (input : String) (r : Reflection) : ¬ (s.on t []).Decodes i input r :=
    fun h => nomatch h.1
  refine ⟨.refl t, ?_, fun q _ => rfl, ?_⟩
  · exact fun i input r h => absurd h (nothing i input r)
  · exact fun i input r q h => absurd h (nothing i input r)

section step

variable {s : Session} {t u final : FileTree} {input : String} {inputs : List String}

theorem decodes_succ
    (h : ∀ rest, (s.on t (input :: rest)).run.2 = (s.on u rest).run.2) {i : Nat} {input' : String}
    {r : Reflection} :
    (s.on t (input :: inputs)).Decodes (i + 1) input' r ↔ (s.on u inputs).Decodes i input' r := by
  have trees : (s.on t (input :: inputs)).treeAt (i + 1) = (s.on u inputs).treeAt i :=
    h (inputs.take i)
  rw [Decodes, Decodes, trees]
  rfl

theorem settles_skip (hnone : ∀ r, ¬ t.Holds input r)
    (h : ∀ rest, (s.on t (input :: rest)).run.2 = (s.on t rest).run.2)
    (ih : (s.on t inputs).Settles final) : (s.on t (input :: inputs)).Settles final := by
  have later (i : Nat) (input' : String) (r : Reflection)
      (hd : (s.on t (input :: inputs)).Decodes i input' r) :
      ∃ j, i = j + 1 ∧ (s.on t inputs).Decodes j input' r := by
    cases i with
    | zero =>
      obtain ⟨rfl, hr⟩ := decodes_zero.1 hd
      exact absurd hr (hnone r)
    | succ j => exact ⟨j, rfl, (decodes_succ h).1 hd⟩
  refine ⟨ih.directories, ?_, ?_, ?_⟩
  · intro i input' r hd
    obtain ⟨j, -, hj⟩ := later i input' r hd
    exact ih.place j input' r hj
  · intro q hq
    exact ih.frame q fun j input' r hj => hq (j + 1) input' r ((decodes_succ h).2 hj)
  · intro i input' r q hd hp hlast
    obtain ⟨j, rfl, hj⟩ := later i input' r hd
    apply ih.last j input' r q hj hp
    intro k input'' r'' hjk hk
    exact hlast (k + 1) input'' r'' (Nat.succ_lt_succ hjk) ((decodes_succ h).2 hk)

theorem settles_write {r : Reflection} {p : Place} (hr : t.Holds input r)
    (wrote : t.Wrote (s.target input) (s.documentation r) p u)
    (h : ∀ rest, (s.on t (input :: rest)).run.2 = (s.on u rest).run.2)
    (ih : (s.on u inputs).Settles final) : (s.on t (input :: inputs)).Settles final := by
  have place_eq (name : String) : u.place? name = t.place? name := wrote.directories.place?_eq name
  refine ⟨wrote.directories.trans ih.directories, ?_, ?_, ?_⟩
  · intro i input' r' hd
    cases i with
    | zero =>
      obtain ⟨rfl, -⟩ := decodes_zero.1 hd
      exact ⟨p, wrote.place⟩
    | succ j =>
      obtain ⟨q, hq⟩ := ih.place j input' r' ((decodes_succ h).1 hd)
      exact ⟨q, (place_eq _).symm.trans hq⟩
  · intro q hq
    have hne : q ≠ p := by
      rintro rfl
      exact hq 0 input r (decodes_zero.2 ⟨rfl, hr⟩) wrote.place
    rw [ih.frame q fun j input' r' hj hp => ?_]
    · exact wrote.frame q hne
    · exact hq (j + 1) input' r' ((decodes_succ h).2 hj) ((place_eq _).symm.trans hp)
  · intro i input' r' q hd hp hlast
    have after (j : Nat) (input'' : String) (r'' : Reflection) (hij : i < j + 1)
        (hj : (s.on u inputs).Decodes j input'' r'') :
        u.place? (s.target input'') ≠ some q := fun hq =>
      hlast (j + 1) input'' r'' hij ((decodes_succ h).2 hj) ((place_eq _).symm.trans hq)
    cases i with
    | zero =>
      obtain ⟨rfl, hr'⟩ := decodes_zero.1 hd
      have same : r' = r := hr'.unique hr
      have here : q = p := Option.some_inj.1 (hp.symm.trans wrote.place)
      rw [ih.frame q fun j input'' r'' hj => after j input'' r'' (Nat.succ_pos j) hj]
      rw [same, here]
      exact wrote.entry
    | succ i =>
      apply ih.last i input' r' q ((decodes_succ h).1 hd) ((place_eq _).trans hp)
      exact fun j input'' r'' hij hj => after j input'' r'' (Nat.succ_lt_succ hij) hj

end step

theorem settles_of_done {s : Session} {inputs : List String} {t : FileTree}
    (h : (s.on t inputs).run.1.status = .done) :
    (s.on t inputs).Settles (s.on t inputs).run.2 := by
  induction inputs generalizing t with
  | nil => exact s.settles_nil t
  | cons input inputs ih =>
    obtain ⟨u, turn, hrest⟩ := turn_of_done h
    have tree_eq := fun rest => (hrest rest).1
    rw [(hrest inputs).2] at h
    rw [tree_eq inputs]
    cases turn with
    | skip hnone => exact settles_skip hnone tree_eq (ih h)
    | write hr wrote => exact settles_write hr wrote tree_eq (ih h)

def Agrees (s : Session) : Prop :=
  ∀ i j input input' r r', s.Decodes i input r → s.Decodes j input' r' →
    outputStem input = outputStem input' → r = r'

theorem target_place (s : Session) (t : FileTree) (input : String) :
    t.place? (s.target input) = (t.folder? s.output).map (outputName input :: ·) :=
  t.place?_joinName s.output (outputName_isEntryName input)

theorem place_eq_iff {s : Session} {t : FileTree} {input input' : String} {p : Place}
    (hp : t.place? (s.target input) = some p) :
    t.place? (s.target input') = some p ↔ outputStem input = outputStem input' := by
  rw [target_place] at hp ⊢
  obtain ⟨folder, hfolder, rfl⟩ := Option.map_eq_some_iff.1 hp
  rw [hfolder, Option.map_some, Option.some_inj, List.cons.injEq, and_iff_left rfl]
  constructor
  · intro h
    exact outputName_injective h.symm
  · intro h
    rw [outputName, outputName, h]

namespace Settles

variable {s : Session} {final : FileTree}

theorem read_last (h : s.Settles final) {i : Nat} {input : String} {r : Reflection}
    (hd : s.Decodes i input r)
    (hlast : ∀ j input' r', i < j → s.Decodes j input' r' →
      outputStem input ≠ outputStem input') :
    final.read (s.target input) = .ok (s.documentation r) := by
  obtain ⟨p, hp⟩ := h.place i input r hd
  have hp' : final.place? (s.target input) = some p := (h.directories.place?_eq _).trans hp
  refine FileTree.read_of_entry hp' (h.last i input r p hd hp fun j input' r' hij hj hq => ?_)
  exact hlast j input' r' hij hj ((place_eq_iff hp).1 hq)

theorem read_of_agrees (h : s.Settles final) (agrees : s.Agrees) {i : Nat} {input : String}
    {r : Reflection} (hd : s.Decodes i input r) :
    final.read (s.target input) = .ok (s.documentation r) := by
  by_cases hlater : ∃ j input' r', i < j ∧ s.Decodes j input' r' ∧
      outputStem input = outputStem input'
  · obtain ⟨j, input', r', hij, hj, hstem⟩ := hlater
    have bound : j < s.inputs.length := (List.getElem?_eq_some_iff.1 hj.1).1
    have target_eq : s.target input = s.target input' := by
      rw [target, target, outputName, outputName, hstem]
    rw [agrees i j input input' r r' hd hj hstem, target_eq]
    exact h.read_of_agrees agrees hj
  · exact h.read_last hd fun j input' r' hij hj hstem => hlater ⟨j, input', r', hij, hj, hstem⟩
termination_by s.inputs.length - i

theorem keeps_iff (h : s.Settles final) : s.Keeps final ↔ s.Agrees := by
  constructor
  · intro keeps i j input input' r r' hi hj hstem
    apply Classical.byContradiction
    intro hne
    apply keeps.apart i j input input' r r' hi hj hne
    rw [target, target, outputName, outputName, hstem]
  · intro agrees
    refine ⟨fun i input r hd => h.read_of_agrees agrees hd, ?_⟩
    intro i j input input' r r' hi hj hne hplace
    obtain ⟨p, hp⟩ := h.place i input r hi
    rw [h.directories.place?_eq, h.directories.place?_eq, hp] at hplace
    exact hne (agrees i j input input' r r' hi hj ((place_eq_iff hp).1 hplace.symm))

end Settles

end Session

theorem makeDirectories_run (t : FileTree) (name : String) :
    (FileTree.disk.makeDirectories name).run t = t.makeDirectories name := rfl

theorem arguments_eq (c : Conversion) (t : FileTree) (output : String) (files : List String) :
    (c.arguments FileTree.disk (some output) files).run t =
      let made := t.makeDirectories output
      let found := ((FileTree.view.inputs files).run made.2).1
      let unmatched := found.unmatched.map Warning.unmatched
      let session := Session.ofFiles c t output files
      if made.1 then
        match found.refused with
        | some cause => ((Outcome.failed (.refused cause)).after unmatched, made.2)
        | none => (session.run.1.after unmatched, session.run.2)
      else (.failed (.uncreatedDirectory output), made.2) := by
  dsimp only
  rw [Session.run, Session.ofFiles, Conversion.arguments, StateT.run_bind, makeDirectories_run]
  generalize t.makeDirectories output = made
  obtain ⟨made, start⟩ := made
  cases made with
  | false => rfl
  | true =>
    change (FileTree.view.inputs files >>= (_ : Inputs → StateM FileTree Outcome)).run start = _
    rw [(FileTree.inputs_looks files).run_bind]
    generalize ((FileTree.view.inputs files).run start).1 = found
    obtain ⟨names, unmatched, refused⟩ := found
    cases refused <;> rfl

theorem arguments_run {c : Conversion} {t : FileTree} {output : String} {files : List String}
    (h : ((c.arguments FileTree.disk (some output) files).run t).1.status = .done) :
    (Session.ofFiles c t output files).run.1.status = .done ∧
      ((c.arguments FileTree.disk (some output) files).run t).2 =
        (Session.ofFiles c t output files).run.2 := by
  revert h
  rw [arguments_eq]
  dsimp only
  split
  · split
    · exact fun h => nomatch h
    · exact fun h => ⟨h, rfl⟩
  · exact fun h => nomatch h

theorem run_convert {t : FileTree} {input : StateM FileTree (Option String)} {args : List String}
    {a : Arguments} (hargs : Request.ofArguments args = some (.convert a)) (hfiles : a.files ≠ []) :
    (run FileTree.disk input args).run t =
      match ((conversion FileTree.view a).run t).1 with
      | .error failure => (.failed failure, t)
      | .ok c => (c.arguments FileTree.disk a.output a.files).run t := by
  obtain ⟨file, files, hnames⟩ := List.exists_cons_of_ne_nil hfiles
  rw [run, hargs]
  change (conversion FileTree.view a >>= (_ : _ → StateM FileTree Outcome)).run t = _
  rw [(FileTree.conversion_looks a).run_bind]
  cases ((conversion FileTree.view a).run t).1 with
  | error failure => rfl
  | ok c => simp only [hnames]

theorem run_standardInput {t : FileTree} {console : Option String} {args : List String}
    {a : Arguments} (hargs : Request.ofArguments args = some (.convert a)) (hfiles : a.files = []) :
    (run FileTree.disk (pure console) args).run t =
      match ((conversion FileTree.view a).run t).1 with
      | .error failure => (.failed failure, t)
      | .ok c => (c.standardInput console, t) := by
  rw [run, hargs]
  change (conversion FileTree.view a >>= (_ : _ → StateM FileTree Outcome)).run t = _
  rw [(FileTree.conversion_looks a).run_bind]
  cases ((conversion FileTree.view a).run t).1 with
  | error failure => rfl
  | ok c =>
    simp only [hfiles]
    rfl

theorem run_of_done {t : FileTree} {input : StateM FileTree (Option String)} {args : List String}
    {a : Arguments} (hargs : Request.ofArguments args = some (.convert a)) (hfiles : a.files ≠ [])
    (hdone : ((run FileTree.disk input args).run t).1.status = .done) :
    ∃ s, Session.Of t a s ∧ s.run.1.status = .done ∧
      ((run FileTree.disk input args).run t).2 = s.run.2 := by
  revert hdone
  rw [run_convert hargs hfiles]
  cases hc : ((conversion FileTree.view a).run t).1 with
  | error failure => exact fun h => nomatch h
  | ok c =>
    cases ho : a.output with
    | none => exact fun h => nomatch h
    | some output =>
      intro h
      obtain ⟨done, tree⟩ := arguments_run h
      exact ⟨_, ⟨hc, ho, rfl⟩, done, tree⟩

theorem Status.exitCode_eq_zero {status : Status} : status.exitCode = 0 ↔ status = .done := by
  cases status <;> simp [exitCode]

/-- A run in file mode that ends well has lost no output exactly when the inputs that share a stem
hold the same project; in any case the last of them has its documentation. -/
theorem outputs_kept_iff {t : FileTree} {input : StateM FileTree (Option String)}
    {args : List String} {a : Arguments}
    (hargs : Request.ofArguments args = some (.convert a)) (hfiles : a.files ≠ [])
    (hexit : ((run FileTree.disk input args).run t).1.status.exitCode = 0) :
    let final := ((run FileTree.disk input args).run t).2
    ∃ s, Session.Of t a s ∧ (s.Keeps final ↔ s.Agrees) ∧
      ∀ i name r, s.Decodes i name r →
        (∀ j name' r', i < j → s.Decodes j name' r' → outputStem name ≠ outputStem name') →
        final.read (s.target name) = .ok (s.documentation r) := by
  intro final
  obtain ⟨s, hs, done, tree⟩ := run_of_done hargs hfiles (Status.exitCode_eq_zero.1 hexit)
  have settles : s.Settles s.run.2 := Session.settles_of_done done
  refine ⟨s, hs, ?_, ?_⟩
  · rw [show final = s.run.2 from tree]
    exact settles.keeps_iff
  · intro i name r hd hlast
    rw [show final = s.run.2 from tree]
    exact settles.read_last hd hlast

def interfaceText (name : String) : String :=
  (Json.Value.object [("children", .list [.object [("name", .text name),
    ("kind", .number 256)]])]).write .compact

def sameStem : FileTree where
  entries :=
    [(["a"], .directory), (["api.json", "a"], .file (.text (interfaceText "A"))),
      (["b"], .directory), (["api.json", "b"], .file (.text (interfaceText "B")))]
  here := []

def sameStemArguments : Arguments :=
  { Arguments.none with files := ["a/api.json", "b/api.json"], output := some "out" }

theorem outputs_kept_iff_sameStem :
    let final := ((run FileTree.disk (pure none) ["-o", "out", "a/api.json", "b/api.json"]).run
      sameStem).2
    ∃ s, Session.Of sameStem sameStemArguments s ∧ (s.Keeps final ↔ s.Agrees) ∧
      ∀ i name r, s.Decodes i name r →
        (∀ j name' r', i < j → s.Decodes j name' r' → outputStem name ≠ outputStem name') →
        final.read (s.target name) = .ok (s.documentation r) :=
  outputs_kept_iff (by decide +kernel) (by decide) (by decide +kernel)

def sameStemSession : Session :=
  .ofFiles ⟨⟨.markdown, ⟨false⟩, "/"⟩, .wide⟩ sameStem "out" sameStemArguments.files

theorem sameStemSession_of : Session.Of sameStem sameStemArguments sameStemSession :=
  ⟨rfl, rfl, rfl⟩

theorem sameStemSession_decodes (i : Nat) (input name : String)
    (hinput : sameStemSession.inputs[i]? = some input)
    (hread : (sameStemSession.treeAt i).find? input = some (.file (.text (interfaceText name))))
    (hnames : ((Reflection.ofText (interfaceText name)).toOption.map fun r =>
      r.children.map (·.name)) = some [name]) :
    ∃ r, sameStemSession.Decodes i input r ∧ r.children.map (·.name) = [name] := by
  cases hr : Reflection.ofText (interfaceText name) with
  | error fault =>
    rw [hr] at hnames
    cases hnames
  | ok r =>
    rw [hr] at hnames
    refine ⟨r, ⟨hinput, interfaceText name, ?_, hr⟩, Option.some.inj hnames⟩
    rw [FileTree.read, hread]

theorem outputs_lost :
    ¬ ∀ (t : FileTree) (input : StateM FileTree (Option String)) (args : List String)
        (a : Arguments) (s : Session),
      Request.ofArguments args = some (.convert a) → a.files ≠ [] →
      ((run FileTree.disk input args).run t).1.status.exitCode = 0 → Session.Of t a s →
      s.Keeps ((run FileTree.disk input args).run t).2 := by
  intro h
  have keeps := h sameStem (pure none) ["-o", "out", "a/api.json", "b/api.json"] sameStemArguments
    sameStemSession (by decide +kernel) (by decide) (by decide +kernel) sameStemSession_of
  obtain ⟨r, hr, names⟩ := sameStemSession_decodes 0 "a/api.json" "A" (by decide +kernel)
    (by decide +kernel) (by decide +kernel)
  obtain ⟨r', hr', names'⟩ := sameStemSession_decodes 1 "b/api.json" "B" (by decide +kernel)
    (by decide +kernel) (by decide +kernel)
  refine keeps.apart 0 1 _ _ r r' hr hr' ?_ rfl
  rintro rfl
  rw [names] at names'
  exact absurd names' (by decide)

end DocTree.Command
