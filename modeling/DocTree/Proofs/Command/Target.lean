import DocTree.Command.FileTree
import DocTree.Proofs.Path.Text

/-!
# Where outputs go

Writing a file changes what stands at one place and leaves all directories as they
are, so names lead to the same places before and after. The outputs of a run go
into one directory, each under a name made from the stem of its input; two of them
go to the same place only if their inputs have the same stem.
-/
namespace DocTree

namespace Command

structure IsEntryName (n : String) : Prop where
  no_slash : '/' ∉ n.toList
  ne_empty : n ≠ ""
  ne_dot : n ≠ "."
  ne_dots : n ≠ ".."

theorem mem_stemChars {c : Char} {cs : List Char} (h : c ∈ stemChars cs) : c ∈ cs := by
  unfold stemChars at h
  split at h
  · rename_i before heq
    split at h
    · exact h
    · have suffix : before <:+ cs.reverse :=
        (List.suffix_cons _ _).trans (heq ▸ List.dropWhile_suffix _)
      exact List.mem_reverse.1 (suffix.subset (List.mem_reverse.1 h))
  · exact h

theorem slash_notMem_outputStem (input : String) : '/' ∉ (outputStem input).toList := by
  unfold outputStem entryName?
  split
  · rename_i name hname
    have hmem : name ∈ nameParts input :=
      (List.mem_filter.1 (List.mem_of_getLast? (Option.filter_eq_some_iff.1 hname).1)).1
    obtain ⟨part, hpart, rfl⟩ := List.mem_map.1 hmem
    intro h
    exact Path.slash_notMem_of_mem hpart (by simpa using mem_stemChars (by simpa using h))
  · decide

theorem outputName_injective {input input' : String} (h : outputName input = outputName input') :
    outputStem input = outputStem input' := by
  have := congrArg String.toList h
  simp only [outputName, String.toList_append, List.append_cancel_right_eq] at this
  exact String.toList_inj.1 this

theorem outputName_isEntryName (input : String) : IsEntryName (outputName input) := by
  have long : 9 < (outputName input).toList.length := by
    simp [outputName]
  refine ⟨?_, ?_, ?_, ?_⟩
  · rw [outputName, String.toList_append, List.mem_append, not_or]
    exact ⟨slash_notMem_outputStem input, by decide⟩
  all_goals
    intro h
    rw [h] at long
    revert long
    decide

namespace FileTree

theorem lookup_filter_ne (p q : Place) (entries : List (Place × Entry)) :
    (entries.filter (·.1 != p)).lookup q = if q = p then none else entries.lookup q := by
  induction entries with
  | nil => simp
  | cons e entries ih =>
    obtain ⟨at_, e⟩ := e
    by_cases hp : at_ = p
    · rw [List.filter_cons_of_neg (by simp [hp]), ih]
      by_cases hq : q = p
      · rw [if_pos hq, if_pos hq]
      · rw [if_neg hq, if_neg hq, List.lookup_cons, beq_false_of_ne (hp ▸ hq)]
    · rw [List.filter_cons_of_pos (by simp [hp]), List.lookup_cons, List.lookup_cons, ih]
      by_cases hq : q = at_
      · rw [hq, if_neg hp, if_neg hp]
      · rw [beq_false_of_ne hq]

theorem entry?_set {p : Place} (hp : p ≠ []) (t : FileTree) (e : Entry) (q : Place) :
    entry? (t.set p e) q = if q = p then some e else t.entry? q := by
  cases q with
  | nil => rw [if_neg (Ne.symm hp)]; rfl
  | cons a q =>
    change (t.entries.filter (·.1 != p) ++ [(p, e)]).lookup (a :: q) = _
    rw [List.lookup_append, lookup_filter_ne]
    by_cases h : a :: q = p
    · simp [h]
    · rw [if_neg h, if_neg h, List.lookup_cons, beq_false_of_ne h]
      exact Option.or_none

structure SameDirectories (t u : FileTree) : Prop where
  here : u.here = t.here
  isDirectory : ∀ p, u.isDirectory p = t.isDirectory p
  closed : u.closed = t.closed

namespace SameDirectories

variable {t u v : FileTree}

theorem refl (t : FileTree) : SameDirectories t t := ⟨rfl, fun _ => rfl, rfl⟩

theorem trans (h : SameDirectories t u) (h' : SameDirectories u v) : SameDirectories t v :=
  ⟨h'.here.trans h.here, fun p => (h'.isDirectory p).trans (h.isDirectory p),
    h'.closed.trans h.closed⟩

theorem isListed (h : SameDirectories t u) (p : Place) : u.isListed p = t.isListed p := by
  rw [FileTree.isListed, FileTree.isListed, h.isDirectory, h.closed]

theorem follow_eq (h : SameDirectories t u) (p : Place) (parts : List String) :
    u.follow p parts = t.follow p parts := by
  induction parts generalizing p with
  | nil => rfl
  | cons part parts ih => rw [follow, follow, h.isDirectory, ih]

theorem place?_eq (h : SameDirectories t u) (name : String) : u.place? name = t.place? name := by
  unfold place? start
  rw [h.here, h.follow_eq]

end SameDirectories

theorem sameDirectories_set {p : Place} (hp : p ≠ []) {t : FileTree}
    (hd : t.isDirectory p = false) (c : Content) : SameDirectories t (t.set p (.file c)) := by
  refine ⟨rfl, fun q => ?_, rfl⟩
  unfold isDirectory at hd ⊢
  rw [entry?_set hp]
  by_cases hq : q = p
  · rw [if_pos hq, hq, hd]
    rfl
  · rw [if_neg hq]

def writePlace? (t : FileTree) (name : String) : Option Place :=
  match t.place? name with
  | some (last :: p) =>
      if t.isDirectory p && !t.isDirectory (last :: p) then some (last :: p) else none
  | _ => none

theorem write_eq (t : FileTree) (name text : String) :
    t.write name text =
      match t.writePlace? name with
      | some p => (true, t.set p (.file (.text text)))
      | none => (false, t) := by
  rw [write, writePlace?]
  cases t.place? name with
  | none => rfl
  | some q =>
    cases q with
    | nil => rfl
    | cons last p => cases hdir : t.isDirectory p && !t.isDirectory (last :: p) <;> simp [hdir]

theorem writePlace?_spec {t : FileTree} {name : String} {q : Place}
    (h : t.writePlace? name = some q) :
    t.place? name = some q ∧ q ≠ [] ∧ t.isDirectory q = false := by
  rw [writePlace?] at h
  split at h
  · rename_i last p hp
    rw [Option.ite_none_right_eq_some, Bool.and_eq_true, Bool.not_eq_true'] at h
    obtain ⟨⟨-, hdir⟩, hq⟩ := h
    cases hq
    exact ⟨hp, List.cons_ne_nil _ _, hdir⟩
  · cases h

theorem SameDirectories.writePlace?_eq {t u : FileTree} (h : t.SameDirectories u) (name : String) :
    u.writePlace? name = t.writePlace? name := by
  unfold writePlace?
  rw [h.place?_eq]
  simp only [h.isDirectory]

/-- What a write does when it goes through: names lead where they led, the name that was written
holds the text, and every other place holds what it held. -/
structure Wrote (t : FileTree) (name text : String) (p : Place) (u : FileTree) : Prop where
  place : t.place? name = some p
  directories : SameDirectories t u
  entry : u.entry? p = some (.file (.text text))
  frame : ∀ q, q ≠ p → u.entry? q = t.entry? q

theorem write_spec {t : FileTree} {name text : String} (h : (t.write name text).1 = true) :
    ∃ p, Wrote t name text p (t.write name text).2 := by
  rw [write_eq] at h ⊢
  cases hp : t.writePlace? name with
  | none =>
    rw [hp] at h
    cases h
  | some p =>
    obtain ⟨hplace, hne, hdir⟩ := writePlace?_spec hp
    refine ⟨p, hplace, sameDirectories_set hne hdir _, ?_, fun q hq => ?_⟩
    · rw [entry?_set hne, if_pos rfl]
    · rw [entry?_set hne, if_neg hq]

theorem read_of_entry {t : FileTree} {name text : String} {p : Place} (hp : t.place? name = some p)
    (he : t.entry? p = some (.file (.text text))) : t.read name = .ok text := by
  rw [read, find?, hp, Option.bind_some, he]

theorem follow_append (t : FileTree) (p : Place) (xs ys : List String) :
    t.follow p (xs ++ ys) = (t.follow p xs).bind fun q => t.follow q ys := by
  induction xs generalizing p with
  | nil => rfl
  | cons x xs ih =>
    rw [List.cons_append, follow, follow, ih]
    split <;> rfl

end FileTree

def directoryParts (directory : String) : List String :=
  if directory.isEmpty then []
  else if directory.toList.getLast? = some '/' then (nameParts directory).dropLast
  else nameParts directory

theorem nameParts_of_notMem {n : String} (hn : '/' ∉ n.toList) : nameParts n = [n] := by
  rw [nameParts, Path.splitSlash_of_notMem hn, List.map_singleton, String.ofList_toList]

theorem isRooted_of_notMem {n : String} (hn : '/' ∉ n.toList) : isRooted n = false := by
  unfold isRooted
  cases h : n.toList with
  | nil => rfl
  | cons c cs =>
    rw [h, List.mem_cons, not_or] at hn
    simpa using Ne.symm hn.1

theorem nameParts_slash (xs ys : List Char) :
    nameParts (String.ofList (xs ++ '/' :: ys)) =
      nameParts (String.ofList xs) ++ nameParts (String.ofList ys) := by
  simp only [nameParts, String.toList_ofList, Path.splitSlash_append, List.map_append]

theorem nameParts_eq_concat {directory : String} (h : directory.toList.getLast? = some '/') :
    nameParts directory = (nameParts directory).dropLast ++ [""] := by
  obtain ⟨xs, hxs⟩ := List.getLast?_eq_some_iff.1 h
  have named : directory = String.ofList (xs ++ '/' :: []) := by rw [← hxs, String.ofList_toList]
  rw [named, nameParts_slash]
  exact (congrArg (· ++ [""]) List.dropLast_concat).symm

theorem nameParts_joinName (directory : String) {n : String} (hn : '/' ∉ n.toList) :
    nameParts (joinName directory n) = directoryParts directory ++ [n] := by
  rcases Path.joinName_cases (isRooted_of_notMem hn) directory with
    ⟨hdirectory, hjoined⟩ | ⟨xs, hjoined, hdirectory⟩
  · rw [hjoined, hdirectory, nameParts_of_notMem hn]
    rfl
  have parts_eq : directoryParts directory = nameParts (String.ofList xs) := by
    rcases hdirectory with rfl | ⟨rfl, hne, hlast⟩
    · rw [directoryParts, if_neg (by simp), if_pos (by simp), nameParts_slash]
      exact List.dropLast_concat
    · rw [directoryParts, if_neg (by simpa using hne), if_neg (by simpa using hlast)]
  rw [hjoined, parts_eq, nameParts_slash, String.ofList_toList, nameParts_of_notMem hn]

theorem isRooted_joinName (directory : String) {n : String} (hn : '/' ∉ n.toList) :
    isRooted (joinName directory n) = isRooted directory := by
  rw [joinName, isRooted_of_notMem hn, if_neg Bool.false_ne_true]
  by_cases hempty : directory = ""
  · rw [hempty, if_pos (by decide), String.empty_append, isRooted_of_notMem hn]
    rfl
  · split
    · exact Path.isRooted_append hempty n
    · rw [String.append_assoc, Path.isRooted_append hempty]

namespace FileTree

def folder? (t : FileTree) (directory : String) : Option Place :=
  (t.follow (t.start directory) (directoryParts directory)).filter t.isDirectory

theorem folder?_eq_some_iff {t : FileTree} {directory : String} {p : Place} (hne : directory ≠ "") :
    t.folder? directory = some p ↔ t.place? directory = some p ∧ t.isDirectory p = true := by
  rw [folder?, Option.filter_eq_some_iff, and_congr_left_iff]
  intro hdir
  rw [place?, if_neg (by simpa using hne), directoryParts, if_neg (by simpa using hne)]
  split
  · rename_i hlast
    have here (q : Place) : t.follow q [""] = some p ↔ q = p := by
      rw [follow, Option.ite_none_right_eq_some]
      change _ ∧ some q = some p ↔ q = p
      rw [Option.some_inj, and_iff_right_iff_imp]
      rintro rfl
      exact hdir
    rw [nameParts_eq_concat hlast, follow_append, Option.bind_eq_some_iff, List.dropLast_concat]
    simp only [here, exists_eq_right]
  · rfl

theorem place?_joinName_step (t : FileTree) {directory n : String} (hn : '/' ∉ n.toList)
    (hne : joinName directory n ≠ "") :
    t.place? (joinName directory n) = (t.folder? directory).map (go · n) := by
  rw [place?, if_neg (by simpa using hne), nameParts_joinName directory hn, follow_append, start,
    isRooted_joinName directory hn, folder?]
  change (t.follow (t.start directory) (directoryParts directory)).bind _ = _
  cases t.follow (t.start directory) (directoryParts directory) with
  | none => rfl
  | some p => by_cases hp : t.isDirectory p <;> simp [follow, hp, Option.filter]

theorem go_of_entry {n : String} (hn : IsEntryName n) (p : Place) : go p n = n :: p := by
  rw [go, if_neg (by simp [hn.ne_empty, hn.ne_dot]), if_neg hn.ne_dots]

theorem joinName_ne_empty (directory : String) {n : String} (hn : IsEntryName n) :
    joinName directory n ≠ "" := by
  intro h
  have hparts := nameParts_joinName directory hn.no_slash
  rw [h, show nameParts "" = [""] by decide] at hparts
  have := congrArg List.getLast? hparts
  rw [List.getLast?_concat] at this
  exact hn.ne_empty (Option.some.inj this).symm

theorem place?_joinName (t : FileTree) (directory : String) {n : String} (hn : IsEntryName n) :
    t.place? (joinName directory n) = (t.folder? directory).map (n :: ·) := by
  rw [t.place?_joinName_step hn.no_slash (joinName_ne_empty directory hn)]
  simp only [go_of_entry hn]

end FileTree

end Command

end DocTree
