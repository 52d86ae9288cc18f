import DocTree.Proofs.Command.AnyOrder

/-!
# How far patterns are followed

Each step of following a pattern uses up a part of it or goes down into an entry of a directory. No
entry of a file system lies deeper than its name can be long, so the steps that are allowed are
always enough: more of them find nothing more.
-/
namespace DocTree.Command

theorem length_mergeDeep_le (parts : List PatternPart) :
    (mergeDeep parts).length ≤ parts.length := by
  induction parts with
  | nil => exact Nat.le_refl _
  | cons p parts ih =>
    cases parts with
    | nil => exact Nat.le_refl _
    | cons q parts =>
      rw [mergeDeep]
      split
      · exact ih.trans (Nat.le_succ _)
      · exact Nat.le_refl _

namespace FileTree

/-- Entries have names, and the name of none of them from the root is longer than a bound. -/
structure Shallow (t : FileTree) (d : Nat) : Prop where
  named : ∀ name p, t.entry? (name :: p) ≠ none → IsEntryName name
  name_le : ∀ p, t.entry? p ≠ none → (rootedName p).length ≤ d

theorem length_le_intercalate (parts : List (List Char)) :
    parts.length ≤ (['/'].intercalate parts).length + 1 := by
  induction parts with
  | nil => exact Nat.zero_le _
  | cons part parts ih =>
    cases parts with
    | nil => simp
    | cons next parts =>
      rw [List.intercalate_cons_cons]
      simp only [List.length_cons, List.length_append, List.length_nil] at ih ⊢
      omega

theorem length_le_rootedName (p : Place) : p.length ≤ (rootedName p).length := by
  have parts := length_le_intercalate (p.reverse.map String.toList)
  rw [List.length_map, List.length_reverse] at parts
  rw [rootedName, String.length_append, ← String.length_toList, ← String.length_toList,
    String.toList_intercalate]
  simpa [Nat.add_comm] using parts

variable {t : FileTree} {d : Nat}

theorem place?_entryName {path name : String} {p : Place} (hp : t.place? path = some p)
    (hdir : t.isDirectory p = true) (hname : IsEntryName name) :
    t.place? (entryName path name) = some (name :: p) := by
  by_cases hhere : isHere path = true
  · have components_path : components path = components "." := beq_iff_eq.1 hhere
    have p_eq : p = t.here := by
      rw [eq_foldl_of_place? hp, start, isRooted_eq, namedParts_eq, components_path]
      rfl
    have start_eq : t.start name = t.here := by
      rw [start, isRooted_of_notMem hname.no_slash, if_neg Bool.false_ne_true]
    subst p_eq
    rw [entryName, if_pos hhere, place?, if_neg (by simpa using hname.ne_empty),
      nameParts_of_notMem hname.no_slash, start_eq, follow, if_pos hdir, follow,
      go_of_entry hname]
  · have hne : path ≠ "" := by
      rintro rfl
      cases hp
    have folder_eq : t.folder? path = some p := (folder?_eq_some_iff hne).2 ⟨hp, hdir⟩
    rw [entryName, if_neg hhere, place?_joinName t path hname, folder_eq, Option.map_some]

def depth (t : FileTree) (path : String) : Nat := ((t.place? path).getD []).length

def room (t : FileTree) (d : Nat) (parts : List PatternPart) (path : String) : Nat :=
  (3 * d + 1) * parts.length + 3 * (d - t.depth path)

theorem room_lt (t : FileTree) (d : Nat) (parts : List PatternPart) (path : String) :
    t.room d parts path < (3 * d + 1) * (parts.length + 1) := by
  have := Nat.sub_le d (t.depth path)
  rw [room, Nat.mul_succ]
  omega

theorem room_lt_cons (part : PatternPart) (parts : List PatternPart) (next path : String) :
    t.room d parts next < t.room d (part :: parts) path :=
  (room_lt t d parts next).trans_le (Nat.le_add_right _ _)

theorem room_mono {parts parts' : List PatternPart} (h : parts.length ≤ parts'.length)
    (path : String) : t.room d parts path ≤ t.room d parts' path :=
  Nat.add_le_add_right (Nat.mul_le_mul_left _ h) _

theorem Shallow.room_entryName (h : t.Shallow d) {path name : String} {names : List String}
    (hnames : t.names path = some names) (hname : name ∈ names) (parts : List PatternPart) :
    t.room d parts (entryName path name) + 3 ≤ t.room d parts path := by
  obtain ⟨p, hp, hlisted⟩ := Option.bind_eq_some_iff.1 hnames
  rw [Option.ite_none_right_eq_some, isListed, Bool.and_eq_true] at hlisted
  obtain ⟨⟨hdir, -⟩, hlisted⟩ := hlisted
  obtain rfl := Option.some.inj hlisted
  have hentry : t.entry? (name :: p) ≠ none := mem_namesAt.1 hname
  have deeper := (length_le_rootedName _).trans (h.name_le _ hentry)
  have place_eq := place?_entryName hp hdir (h.named name p hentry)
  rw [List.length_cons] at deeper
  rw [room, room, depth, depth, hp, place_eq, Option.getD_some, Option.getD_some, List.length_cons]
  omega

def Enough (t : FileTree) (bound n : Nat) (x : Nat → StateM FileTree (List String)) : Prop :=
  ∀ m, bound < n → bound < m → ((x n).run t).1 = ((x m).run t).1

theorem Enough.succ {bound n : Nat} {x : Nat → StateM FileTree (List String)}
    (h : ∀ m, bound ≤ n → bound ≤ m → ((x (n + 1)).run t).1 = ((x (m + 1)).run t).1) :
    t.Enough bound (n + 1) x := by
  intro m hn hm
  cases m with
  | zero => cases hm
  | succ m => exact h m (Nat.le_of_lt_succ hn) (Nat.le_of_lt_succ hm)

/-- Any number of steps that the room leaves finds what `n` steps find. -/
structure Steady (t : FileTree) (d n : Nat) : Prop where
  follow : ∀ parts path, t.Enough (t.room d parts path) n fun n => view.follow n parts path
  visit : ∀ parts name path,
    t.Enough (t.room d parts path + 2) n fun n => view.visit n parts name path
  enter : ∀ parts name path,
    t.Enough (t.room d parts path + 1) n fun n => view.enter n parts name path

namespace Steady

variable {n : Nat}

theorem enter_succ (ih : t.Steady d n) (parts : List PatternPart) (name path : String) :
    t.Enough (t.room d parts path + 1) (n + 1) fun n => view.enter n parts name path := by
  apply Enough.succ
  intro m hn hm
  cases parts with
  | nil => rfl
  | cons part parts =>
    have := t.room_lt_cons (d := d) part parts path path
    rw [View.enter, View.enter]
    split
    · apply ih.follow parts path m <;> omega
    · rfl

theorem visit_succ (ih : t.Steady d n) (parts : List PatternPart) (name path : String) :
    t.Enough (t.room d parts path + 2) (n + 1) fun n => view.visit n parts name path := by
  apply Enough.succ
  intro m hn hm
  have merged := length_mergeDeep_le parts
  rw [View.visit, View.visit]
  cases hparts : mergeDeep parts with
  | nil => rfl
  | cons part rest =>
    rw [hparts] at merged
    have room_part := room_mono (t := t) (d := d) merged path
    have room_rest := room_mono (t := t) (d := d) (Nat.le_of_succ_le merged) path
    have entered : ((view.enter n rest name path).run t).1 =
        ((view.enter m rest name path).run t).1 := by
      apply ih.enter rest name path m <;> omega
    have followed : ((view.follow n (part :: rest) path).run t).1 =
        ((view.follow m (part :: rest) path).run t).1 := by
      apply ih.follow (part :: rest) path m <;> omega
    dsimp only
    split
    · apply ((follow_looks n).2.2 _ _ _).bind_congr ((follow_looks m).2.2 _ _ _) entered
      intro found _
      apply (isDirectory_looks path).bind_congr (isDirectory_looks path) rfl
      intro there _
      cases there with
      | false => rfl
      | true =>
        apply ((follow_looks n).1 _ _).bind_congr ((follow_looks m).1 _ _) followed
        intro below _
        rfl
    · apply ih.enter (part :: rest) name path m <;> omega

theorem follow_succ (ih : t.Steady d n) (h : t.Shallow d) (parts : List PatternPart)
    (path : String) :
    t.Enough (t.room d parts path) (n + 1) fun n => view.follow n parts path := by
  apply Enough.succ
  intro m hn hm
  cases parts with
  | nil => rfl
  | cons part parts =>
    -- where the part leads by its name alone makes no difference to the room it leaves
    have behind (next : String) :
        ((view.follow n parts next).run t).1 = ((view.follow m parts next).run t).1 := by
      have := t.room_lt_cons (d := d) part parts next path
      apply ih.follow parts next m <;> omega
    have next (there : Bool) (name : String) :
        ((if there then view.follow n parts name else pure []).run t).1 =
          ((if there then view.follow m parts name else pure []).run t).1 := by
      cases there with
      | false => rfl
      | true => exact behind name
    rw [View.follow, View.follow]
    cases part.literal? with
    | some name =>
      dsimp only
      split
      · exact (isDirectory_looks _).bind_congr (isDirectory_looks _) rfl fun there _ => next there _
      · exact (isPresent_looks _).bind_congr (isPresent_looks _) rfl fun there _ => next there _
    | none =>
      apply (isDirectory_looks path).bind_congr (isDirectory_looks path) rfl
      intro there _
      cases there with
      | false => rfl
      | true =>
        apply (names_looks path).bind_congr (names_looks path) rfl
        intro names hnames
        cases names with
        | none => rfl
        | some names =>
          have visited (name : String) (hname : name ∈ names) :
              ((view.visit n (part :: parts) name (entryName path name)).run t).1 =
                ((view.visit m (part :: parts) name (entryName path name)).run t).1 := by
            have := h.room_entryName hnames.symm hname (part :: parts)
            apply ih.visit (part :: parts) name (entryName path name) m <;> omega
          have follow_looks (k : Nat) (name : String) :
              Looks (view.follow k parts (joinName path name)) := (follow_looks k).1 _ _
          have visit_looks (k : Nat) (name : String) :
              Looks (view.visit k (part :: parts) name (entryName path name)) :=
            (FileTree.follow_looks k).2.1 _ _ _
          apply (Looks.mapM (follow_looks n) _).bind_congr (.mapM (follow_looks m) _)
          · rw [Looks.run_mapM (follow_looks n), Looks.run_mapM (follow_looks m)]
            exact List.map_congr_left fun name _ => behind _
          intro dots _
          apply (Looks.mapM (visit_looks n) _).bind_congr (.mapM (visit_looks m) _)
          · rw [Looks.run_mapM (visit_looks n), Looks.run_mapM (visit_looks m)]
            exact List.map_congr_left visited
          intro found _
          rfl

end Steady

theorem Shallow.steady (h : t.Shallow d) (n : Nat) : t.Steady d n := by
  induction n with
  | zero =>
    refine ⟨fun _ _ m hn => ?_, fun _ _ _ m hn => ?_, fun _ _ _ m hn => ?_⟩
    all_goals cases hn
  | succ n ih => exact ⟨ih.follow_succ h, ih.visit_succ, ih.enter_succ⟩

/-- Where names are no longer than a file system takes them, more steps than a pattern is given find
nothing more. -/
theorem Shallow.follow_maxSteps (h : t.Shallow 4096) (p : Pattern) (start : String) {n : Nat}
    (hn : p.maxSteps ≤ n) :
    ((view.follow n p.parts start).run t).1 =
      ((view.follow p.maxSteps p.parts start).run t).1 := by
  have enough : t.room 4096 p.parts start < p.maxSteps := t.room_lt 4096 p.parts start
  exact (h.steady n).follow p.parts start p.maxSteps (enough.trans_le hn) enough

end FileTree

end DocTree.Command
