import DocTree.Proofs.Command.Listing
import DocTree.Proofs.Command.Repeating
import DocTree.Proofs.Command.Sorting
import Mathlib.Data.List.Forall2

/-!
# Runs on the same inputs in another order

File arguments may be given in any order, more than once and one inside another, and directories may
list their entries in any order. What the arguments stand for are then the same files, and sorting
them leads to names that are the same component by component, in the same order. Names with the
same components lead to the same place and have the same stem, so such runs read and write the same
files in turn.
-/
namespace DocTree.Command

def namedParts (name : String) : List String :=
  (nameParts name).filter fun p => p != "" && p != "."

def startComponents (name : String) : List Component :=
  if isRooted name then [(0, "/")]
  else if (nameParts name).head? == some "." then [(1, ".")] else []

theorem components_eq (name : String) :
    components name = startComponents name ++ (namedParts name).map component := by
  rw [startComponents, apply_ite (· ++ _), apply_ite (· ++ _)]
  rfl

theorem two_le_component (part : String) : 2 ≤ (component part).1 := by
  rw [component]
  split <;> simp

theorem component_text (part : String) : (component part).2 = part := by
  rw [component]
  split <;> rfl

theorem namedParts_eq (name : String) :
    namedParts name = ((components name).filter fun c => 2 ≤ c.1).map (·.2) := by
  have start : (startComponents name).filter (fun c => 2 ≤ c.1) = [] := by
    rw [startComponents]
    split
    · rfl
    · split <;> rfl
  have named : ((namedParts name).map component).filter (fun c => 2 ≤ c.1) =
      (namedParts name).map component := by
    simp [List.filter_eq_self, two_le_component]
  rw [components_eq, List.filter_append, start, named, List.nil_append, List.map_map]
  simp [Function.comp_def, component_text]

theorem isRooted_eq (name : String) :
    isRooted name = (components name).any fun c => c.1 == 0 := by
  have named : ((namedParts name).map component).any (fun c => c.1 == 0) = false := by
    simp only [List.any_eq_false, List.mem_map, forall_exists_index, and_imp, beq_iff_eq]
    rintro _ part - rfl
    have := two_le_component part
    omega
  rw [components_eq, List.any_append, named, Bool.or_false, startComponents]
  split
  · assumption
  · rename_i hrooted
    rw [eq_false_of_ne_true hrooted]
    split <;> rfl

theorem outputStem_congr {x y : String} (h : components x = components y) :
    outputStem x = outputStem y := by
  have named_eq : namedParts x = namedParts y := by rw [namedParts_eq, namedParts_eq, h]
  have entryName_eq (name : String) :
      entryName? name = (namedParts name).getLast?.filter (· != "..") := rfl
  rw [outputStem, outputStem, entryName_eq, entryName_eq, named_eq]

namespace FileTree

theorem foldl_go_named (p : Place) (parts : List String) :
    parts.foldl go p = (parts.filter fun p => p != "" && p != ".").foldl go p := by
  induction parts generalizing p with
  | nil => rfl
  | cons part parts ih =>
    rw [List.foldl_cons, ih]
    by_cases hpart : part = "" ∨ part = "."
    · rw [List.filter_cons_of_neg (by grind), go, if_pos hpart]
    · rw [List.filter_cons_of_pos (by grind), List.foldl_cons]

theorem follow_eq_foldl {t : FileTree} {p q : Place} {parts : List String}
    (h : t.follow p parts = some q) : q = parts.foldl go p := by
  induction parts generalizing p with
  | nil => exact (Option.some.inj h).symm
  | cons part parts ih =>
    rw [follow] at h
    split at h
    · exact ih h
    · cases h

theorem eq_foldl_of_place? {t : FileTree} {name : String} {p : Place}
    (h : t.place? name = some p) : p = (namedParts name).foldl go (t.start name) := by
  rw [place?] at h
  split at h
  · cases h
  · rw [follow_eq_foldl h, foldl_go_named, namedParts]

theorem place_eq_of_components {t : FileTree} {x y : String} {p q : Place}
    (h : components x = components y) (hp : t.place? x = some p) (hq : t.place? y = some q) :
    p = q := by
  rw [eq_foldl_of_place? hp, eq_foldl_of_place? hq, start, start, isRooted_eq, isRooted_eq,
    namedParts_eq, namedParts_eq, h]

/-- Two names with the same components that lead to one place. -/
structure Alike (t : FileTree) (x y : String) : Prop where
  components : components x = components y
  place : ∃ p, t.place? x = some p ∧ t.place? y = some p

theorem place_of_file {t : FileTree} {name : String} (h : t.kind name = .file) :
    ∃ p, t.place? name = some p := by
  rw [kind, find?] at h
  cases hp : t.place? name with
  | some p => exact ⟨p, rfl⟩
  | none =>
    rw [hp] at h
    cases h

theorem alike_of_files {t : FileTree} {x y : String} (h : components x = components y)
    (hx : t.kind x = .file) (hy : t.kind y = .file) : t.Alike x y := by
  obtain ⟨p, hp⟩ := place_of_file hx
  obtain ⟨q, hq⟩ := place_of_file hy
  exact ⟨h, p, hp, place_eq_of_components h hp hq ▸ hq⟩

theorem Alike.read_eq {t : FileTree} {x y : String} (h : t.Alike x y) : t.read y = t.read x := by
  obtain ⟨p, hx, hy⟩ := h.place
  rw [read, read, find?, find?, hx, hy]

theorem SameDirectories.alike {t u : FileTree} (h : t.SameDirectories u) {x y : String}
    (hxy : t.Alike x y) : u.Alike x y := by
  obtain ⟨hcomponents, p, hx, hy⟩ := hxy
  exact ⟨hcomponents, p, (h.place?_eq x).trans hx, (h.place?_eq y).trans hy⟩

theorem forall₂_alike {t : FileTree} {xs ys : List String}
    (h : xs.map components = ys.map components) (hxs : ∀ x ∈ xs, t.kind x = .file)
    (hys : ∀ y ∈ ys, t.kind y = .file) : List.Forall₂ t.Alike xs ys := by
  induction xs generalizing ys with
  | nil =>
    rw [List.map_eq_nil_iff.1 h.symm]
    exact .nil
  | cons x xs ih =>
    obtain ⟨y, ys, rfl, hy, htail⟩ := List.map_eq_cons_iff.1 h.symm
    refine .cons (alike_of_files hy.symm (hxs x List.mem_cons_self) (hys y List.mem_cons_self)) ?_
    exact ih htail.symm (fun x hx => hxs x (List.mem_cons_of_mem _ hx))
      fun y hy => hys y (List.mem_cons_of_mem _ hy)

end FileTree

namespace Session

theorem converted_eq_ok {s : Session} {t u : FileTree} {x y text : String}
    (h : u.read y = t.read x) : s.converted u y = .ok text ↔ s.converted t x = .ok text := by
  rw [converted, converted, h]
  cases t.read x <;> simp

theorem run_same (s : Session) {t u : FileTree} {xs ys : List String} (h : t.Same u)
    (hxy : List.Forall₂ t.Alike xs ys) :
    (s.on u ys).run.1.status = (s.on t xs).run.1.status ∧
      (s.on t xs).run.2.Same (s.on u ys).run.2 := by
  induction xs generalizing t u ys with
  | nil =>
    cases hxy
    exact ⟨rfl, h⟩
  | cons x xs ih =>
    cases hxy with
    | @cons _ y _ ys hhead htail =>
      have target_eq : s.target y = s.target x := by
        rw [target, target, outputName, outputName, outputStem_congr hhead.components]
      have converted_iff (text : String) :
          s.converted u y = .ok text ↔ s.converted t x = .ok text :=
        converted_eq_ok ((h.read_eq y).trans hhead.read_eq)
      cases hx : s.converted t x with
      | error fault =>
        cases hy : s.converted u y with
        | ok text =>
          rw [(converted_iff text).1 hy] at hx
          cases hx
        | error fault' =>
          rw [run_skip hx, run_skip hy]
          exact ih h htail
      | ok text =>
        rw [run_write hx, run_write ((converted_iff text).2 hx), target_eq, FileTree.write_eq,
          FileTree.write_eq, h.directories.writePlace?_eq]
        cases hq : t.writePlace? (s.target x) with
        | none => exact ⟨rfl, h⟩
        | some q =>
          obtain ⟨-, hne, hdir⟩ := FileTree.writePlace?_spec hq
          have kept := FileTree.sameDirectories_set hne hdir (.text text)
          exact ih (h.set hne _) (htail.imp fun _ _ => kept.alike)

end Session

section

variable {t u : FileTree}

theorem inputs_alike (h : t.Same u) {files files' : List String} (hfiles : SameMembers files files')
    (hwell : (t.inputs files).refused = none) :
    List.Forall₂ t.Alike (sortNames (t.inputs files).files)
      (sortNames (u.inputs files').files) := by
  have found := h.files_inputs hfiles hwell
  refine FileTree.forall₂_alike (sortNames_congr found) (fun x hx => ?_) fun y hy => ?_
  · exact FileTree.kind_of_mem_inputs hwell (mem_of_mem_sortNames hx)
  · exact FileTree.kind_of_mem_inputs hwell ((found y).2 (mem_of_mem_sortNames hy))

theorem arguments_same (c : Conversion) (output : String) {files files' : List String}
    (h : t.Same u) (hfiles : SameMembers files files') :
    let one : Outcome × FileTree := (c.arguments FileTree.disk (some output) files).run t
    let other : Outcome × FileTree := (c.arguments FileTree.disk (some output) files').run u
    other.1.status.exitCode = one.1.status.exitCode ∧ one.2.Same other.2 := by
  intro one other
  have one_eq : one = _ := arguments_eq c t output files
  have other_eq : other = _ := arguments_eq c u output files'
  obtain ⟨made_eq, made⟩ := h.makeDirectories output
  rw [one_eq, other_eq, Session.ofFiles, Session.ofFiles]
  dsimp only
  rw [made_eq, FileTree.run_inputs, FileTree.run_inputs]
  generalize (t.makeDirectories output).2 = start at made ⊢
  generalize (u.makeDirectories output).2 = start' at made ⊢
  split
  · have refused_eq := made.refused_inputs hfiles
    cases hwell : (start.inputs files).refused with
    | some cause =>
      rw [hwell] at refused_eq
      obtain ⟨cause', hwell'⟩ := Option.isSome_iff_exists.1 refused_eq
      rw [hwell']
      exact ⟨rfl, made⟩
    | none =>
      rw [hwell] at refused_eq
      have hwell' := Option.isNone_iff_eq_none.1 (Option.isSome_eq_false_iff.1 refused_eq)
      rw [hwell']
      let s : Session := ⟨c, output, start, []⟩
      obtain ⟨status_eq, same⟩ := s.run_same made (inputs_alike made hfiles hwell)
      exact ⟨congrArg Status.exitCode status_eq, same⟩
  · exact ⟨rfl, made⟩

/-- Two runs with the same options on the same file arguments end in the same way and leave the
same files, whatever the order of the arguments, the number of times that each is given and the
order in which directories list their entries. -/
theorem run_any_order {input input' : StateM FileTree (Option String)} {args args' : List String}
    {a : Arguments} {files : List String} (hargs : Request.ofArguments args = some (.convert a))
    (hargs' : Request.ofArguments args' = some (.convert { a with files := files }))
    (hnone : a.files ≠ []) (hfiles : SameMembers a.files files) (h : t.Same u) :
    let one : Outcome × FileTree := (run FileTree.disk input args).run t
    let other : Outcome × FileTree := (run FileTree.disk input' args').run u
    other.1.status.exitCode = one.1.status.exitCode ∧ one.2.Same other.2 := by
  intro one other
  have one_eq : one = _ := run_convert hargs hnone
  have other_eq : other = _ := run_convert hargs' (hfiles.eq_nil_iff.not.1 hnone)
  have settled : ((conversion FileTree.view { a with files := files }).run u).1 =
      ((conversion FileTree.view a).run t).1 :=
    conversion_congr h.here fun file _ => h.read_eq file
  rw [settled] at other_eq
  rw [one_eq, other_eq]
  cases ((conversion FileTree.view a).run t).1 with
  | error failure => exact ⟨rfl, h⟩
  | ok c =>
    cases a.output with
    | none => exact ⟨rfl, h⟩
    | some output => exact arguments_same c output h hfiles

end

def twoDirectories (listed : List (Place × Entry)) : FileTree where
  entries :=
    [(["d"], .directory), (["e"], .directory),
      (["api.json", "e"], .file (.text (interfaceText "B")))] ++ listed
  here := []

theorem run_any_order_overlapping :
    let core : Place × Entry := (["core.json", "d"], .file (.text (interfaceText "C")))
    let api : Place × Entry := (["api.json", "d"], .file (.text (interfaceText "A")))
    let t := twoDirectories [core, api]
    let u := twoDirectories [api, core]
    let one : Outcome × FileTree := (run FileTree.disk (pure none)
      ["-o", "out", "d", "e/api.json", "d/*.json"]).run t
    let other : Outcome × FileTree := (run FileTree.disk (pure none)
      ["e/api.json", "-o", "out", "d/*.json", "d", "d"]).run u
    one.1.status.exitCode = 0 ∧ other.1.status.exitCode = one.1.status.exitCode ∧
      one.2.Same other.2 := by
  intro core api t u
  have same : t.Same u := .of_perm rfl rfl (by decide +kernel) (by decide +kernel)
  have agree := @run_any_order t u (pure none) (pure none)
    ["-o", "out", "d", "e/api.json", "d/*.json"] ["e/api.json", "-o", "out", "d/*.json", "d", "d"]
    { Arguments.none with files := ["d", "e/api.json", "d/*.json"], output := some "out" }
    ["e/api.json", "d/*.json", "d", "d"] (by decide +kernel) (by decide +kernel) (by decide)
    (by decide +kernel) same
  exact ⟨by decide +kernel, agree⟩

end DocTree.Command
