import DocTree.Proofs.Command.Directories
import DocTree.Proofs.Command.Projects

/-!
# Trees that list their entries in another order

Two trees may hold the same entries and list them in different orders. Every name then leads to the
same place in both, and following a pattern leads to the same names, if in another order. So which
files a list of arguments stands for does not depend on the order in which directories are listed,
nor on the order of the arguments and how often each is given.
-/
namespace DocTree.Command

def SameMembers {α : Type} (xs ys : List α) : Prop := ∀ x, x ∈ xs ↔ x ∈ ys

namespace SameMembers

variable {α β : Type} {xs ys : List α}

instance [DecidableEq α] (xs ys : List α) : Decidable (SameMembers xs ys) :=
  decidable_of_iff ((∀ x ∈ xs, x ∈ ys) ∧ ∀ y ∈ ys, y ∈ xs)
    ⟨fun h x => ⟨h.1 x, h.2 x⟩, fun h => ⟨fun x => (h x).1, fun x => (h x).2⟩⟩

theorem refl (xs : List α) : SameMembers xs xs := fun _ => .rfl

theorem append {xs' ys' : List α} (h : SameMembers xs ys) (h' : SameMembers xs' ys') :
    SameMembers (xs ++ xs') (ys ++ ys') := by
  intro x
  rw [List.mem_append, List.mem_append, h x, h' x]

theorem map (f : α → β) (h : SameMembers xs ys) : SameMembers (xs.map f) (ys.map f) := by
  intro x
  simp only [List.mem_map, h _]

theorem flatMap {f g : α → List β} (h : SameMembers xs ys) (hfg : ∀ a, SameMembers (f a) (g a)) :
    SameMembers (xs.flatMap f) (ys.flatMap g) := by
  intro x
  simp only [List.mem_flatMap, h _, hfg _ x]

theorem filter (p : α → Bool) (h : SameMembers xs ys) :
    SameMembers (xs.filter p) (ys.filter p) := by
  intro x
  rw [List.mem_filter, List.mem_filter, h x]

theorem eq_nil_iff (h : SameMembers xs ys) : xs = [] ↔ ys = [] := by
  simp only [List.eq_nil_iff_forall_not_mem, h _]

end SameMembers

namespace FileTree

/-- The second tree holds what the first one holds; it may list it in another order. -/
structure Same (t u : FileTree) : Prop where
  here : u.here = t.here
  entry : ∀ p, u.entry? p = t.entry? p
  closed : u.closed = t.closed

theorem lookup_eq_some_iff_mem {entries : List (Place × Entry)}
    (distinct : (entries.map (·.1)).Nodup) {p : Place} {e : Entry} :
    entries.lookup p = some e ↔ (p, e) ∈ entries := by
  induction entries with
  | nil => simp
  | cons entry entries ih =>
    obtain ⟨q, f⟩ := entry
    rw [List.map_cons, List.nodup_cons] at distinct
    rw [List.lookup_cons, List.mem_cons, Prod.mk.injEq]
    split
    · rename_i heq
      obtain rfl : p = q := beq_iff_eq.1 heq
      have elsewhere : (p, e) ∉ entries := fun h => distinct.1 (List.mem_map.2 ⟨_, h, rfl⟩)
      simp [elsewhere, eq_comm]
    · rename_i hne
      rw [ih distinct.2]
      simp [ne_of_beq_false hne]

theorem Same.of_perm {t u : FileTree} (hhere : u.here = t.here) (hclosed : u.closed = t.closed)
    (h : u.entries.Perm t.entries) (distinct : (t.entries.map (·.1)).Nodup) : t.Same u := by
  refine ⟨hhere, fun p => ?_, hclosed⟩
  cases p with
  | nil => rfl
  | cons name p =>
    have distinct' := (h.map (·.1)).nodup_iff.2 distinct
    refine Option.ext fun e => ?_
    change u.entries.lookup (name :: p) = some e ↔ t.entries.lookup (name :: p) = some e
    rw [lookup_eq_some_iff_mem distinct, lookup_eq_some_iff_mem distinct', h.mem_iff]

namespace Same

variable {t u : FileTree}

theorem isDirectory (h : t.Same u) (p : Place) : u.isDirectory p = t.isDirectory p := by
  rw [FileTree.isDirectory, FileTree.isDirectory, h.entry]

theorem directories (h : t.Same u) : t.SameDirectories u := ⟨h.here, h.isDirectory, h.closed⟩

theorem find?_eq (h : t.Same u) (name : String) : u.find? name = t.find? name := by
  rw [find?, find?, h.directories.place?_eq, funext h.entry]

theorem kind_eq (h : t.Same u) (name : String) : u.kind name = t.kind name := by
  rw [kind, kind, h.find?_eq]

theorem read_eq (h : t.Same u) (name : String) : u.read name = t.read name := by
  rw [read, read, h.find?_eq]

theorem set (h : t.Same u) {p : Place} (hp : p ≠ []) (e : Entry) :
    (t.set p e).Same (u.set p e) := by
  refine ⟨h.here, fun q => ?_, h.closed⟩
  rw [entry?_set hp, entry?_set hp, h.entry]

theorem makeAlong (h : t.Same u) (p : Place) (parts : List String) :
    (u.makeAlong p parts).1 = (t.makeAlong p parts).1 ∧
      (t.makeAlong p parts).2.Same (u.makeAlong p parts).2 := by
  induction parts generalizing t u p with
  | nil => exact ⟨rfl, h⟩
  | cons part parts ih =>
    rw [FileTree.makeAlong, FileTree.makeAlong, h.entry]
    cases hq : t.entry? (go p part) with
    | none =>
      refine ih (h.set ?_ _) _
      intro hnil
      rw [hnil] at hq
      cases hq
    | some e =>
      cases e with
      | directory => exact ih h _
      | file c => exact ⟨rfl, h⟩

theorem makeDirectories (h : t.Same u) (name : String) :
    (u.makeDirectories name).1 = (t.makeDirectories name).1 ∧
      (t.makeDirectories name).2.Same (u.makeDirectories name).2 := by
  have start_eq : u.start name = t.start name := by rw [start, start, h.here]
  obtain ⟨made_eq, same⟩ := h.makeAlong (t.start name) (madeParts (nameParts name))
  rw [FileTree.makeDirectories, FileTree.makeDirectories, start_eq]
  dsimp only
  rw [made_eq, same.kind_eq]
  exact ⟨rfl, same⟩

end Same

theorem mem_namesAt {t : FileTree} {p : Place} {name : String} :
    name ∈ t.namesAt p ↔ t.entry? (name :: p) ≠ none := by
  change _ ↔ t.entries.lookup (name :: p) ≠ none
  rw [← Option.isSome_iff_ne_none, List.lookup_isSome_iff, namesAt, List.mem_filterMap]
  refine exists_congr fun e => and_congr_right fun _ => ?_
  obtain ⟨place, e⟩ := e
  cases place with
  | nil => simp
  | cons n q =>
    rw [Option.ite_none_right_eq_some, Option.some_inj, beq_iff_eq, List.cons.injEq, and_comm,
      eq_comm, eq_comm (a := q)]

theorem Same.names {t u : FileTree} (h : t.Same u) (name : String) :
    Option.Rel SameMembers (t.names name) (u.names name) := by
  rw [FileTree.names, FileTree.names, h.directories.place?_eq]
  cases t.place? name with
  | none => exact .none
  | some p =>
    rw [Option.bind_some, Option.bind_some, h.directories.isListed]
    cases t.isListed p with
    | false => exact .none
    | true =>
      refine .some fun n => ?_
      rw [mem_namesAt, mem_namesAt, h.entry]

theorem Same.projectsAmong {t u : FileTree} (h : t.Same u) (directory : String)
    {names names' : List String} (hnames : SameMembers names names') :
    SameMembers (t.projectsAmong directory names) (u.projectsAmong directory names') := by
  rw [FileTree.projectsAmong, FileTree.projectsAmong]
  simp only [h.kind_eq]
  exact ((hnames.filter _).map _).filter _

/-- Looked at in trees with the same entries, both actions find related answers. -/
def Agree {α β : Type} (R : α → β → Prop) (x : StateM FileTree α) (y : StateM FileTree β) : Prop :=
  ∀ ⦃t u⦄, t.Same u → R (x.run t).1 (y.run u).1

namespace Agree

variable {α β γ δ : Type} {R : α → β → Prop} {S : γ → δ → Prop}

theorem pure {a : α} {b : β} (h : R a b) : Agree R (Pure.pure a) (Pure.pure b) := fun _ _ _ => h

theorem bind {x : StateM FileTree α} {y : StateM FileTree β} {f : α → StateM FileTree γ}
    {g : β → StateM FileTree δ} (hxy : Agree R x y) (hx : Looks x) (hy : Looks y)
    (hfg : ∀ a b, R a b → Agree S (f a) (g b)) : Agree S (x >>= f) (y >>= g) := by
  intro t u h
  rw [hx.run_bind, hy.run_bind]
  exact hfg _ _ (hxy h) h

theorem ite {p : Prop} [Decidable p] {x x' : StateM FileTree α} {y y' : StateM FileTree β}
    (h : Agree R x y) (h' : Agree R x' y') :
    Agree R (if p then x else x') (if p then y else y') := by
  split
  · exact h
  · exact h'

theorem mapM {f : α → StateM FileTree (List γ)} {xs ys : List α} (hxy : SameMembers xs ys)
    (hf : ∀ a, Looks (f a)) (h : ∀ a, Agree SameMembers (f a) (f a)) :
    Agree (fun found found' => SameMembers found.flatten found'.flatten) (xs.mapM f)
      (ys.mapM f) := by
  intro t u hsame
  rw [Looks.run_mapM hf, Looks.run_mapM hf, ← List.flatMap_def, ← List.flatMap_def]
  exact hxy.flatMap fun a => h a hsame

end Agree

theorem isDirectory_agree (name : String) :
    Agree Eq (view.isDirectory name) (view.isDirectory name) :=
  fun _ _ h => congrArg (· == FileKind.directory) (h.kind_eq name).symm

theorem isPresent_agree (name : String) : Agree Eq (view.isPresent name) (view.isPresent name) :=
  fun _ _ h => congrArg (· != FileKind.missing) (h.kind_eq name).symm

theorem names_agree (name : String) :
    Agree (Option.Rel SameMembers) (view.names name) (view.names name) :=
  fun _ _ h => h.names name

-- As when they are looked at, the three ways to follow a pattern go together.
theorem follow_agree (fuel : Nat) :
    (∀ parts path, Agree SameMembers (view.follow fuel parts path)
        (view.follow fuel parts path)) ∧
      (∀ parts name path, Agree SameMembers (view.visit fuel parts name path)
        (view.visit fuel parts name path)) ∧
      ∀ parts name path, Agree SameMembers (view.enter fuel parts name path)
        (view.enter fuel parts name path) := by
  induction fuel with
  | zero =>
    refine ⟨fun parts path => ?_, fun parts name path => ?_, fun parts name path => ?_⟩
    · rw [View.follow]
      exact .pure (.refl [])
    · rw [View.visit]
      exact .pure (.refl [])
    · rw [View.enter]
      exact .pure (.refl [])
  | succ fuel ih =>
    obtain ⟨follow, visit, enter⟩ := ih
    obtain ⟨follow_looks, visit_looks, enter_looks⟩ := follow_looks fuel
    refine ⟨fun parts path => ?_, fun parts name path => ?_, fun parts name path => ?_⟩
    · cases parts with
      | nil => exact .pure (.refl [path])
      | cons part parts =>
        rw [View.follow]
        cases part.literal? with
        | some name =>
          have next (there there' : Bool) (heq : there = there') :
              Agree SameMembers
                (if there then view.follow fuel parts (entryName path name) else pure [])
                (if there' then view.follow fuel parts (entryName path name) else pure []) :=
            heq ▸ .ite (follow _ _) (.pure (.refl []))
          exact .ite
            (.bind (isDirectory_agree _) (isDirectory_looks _) (isDirectory_looks _) next)
            (.bind (isPresent_agree _) (isPresent_looks _) (isPresent_looks _) next)
        | none =>
          refine .bind (isDirectory_agree _) (isDirectory_looks _) (isDirectory_looks _) ?_
          rintro there _ rfl
          refine .ite ?_ (.pure (.refl []))
          refine .bind (names_agree _) (names_looks _) (names_looks _) fun names names' hnames => ?_
          cases hnames with
          | none => exact .pure (.refl [])
          | some hnames =>
            have looks := Looks.mapM (fun name => follow_looks parts (joinName path name))
              part.dotNames
            refine .bind (.mapM (.refl _) (fun name => follow_looks _ _) fun name => follow _ _)
              looks looks fun dots dots' hdots => ?_
            have looks := Looks.mapM fun name =>
              visit_looks (part :: parts) name (entryName path name)
            refine .bind (.mapM hnames (fun name => visit_looks _ _ _) fun name => visit _ _ _)
              (looks _) (looks _) fun found found' hfound => ?_
            exact .pure (hdots.append hfound)
    · rw [View.visit]
      cases mergeDeep parts with
      | nil => exact .pure (.refl [])
      | cons part parts =>
        refine .ite (.bind (enter _ _ _) (enter_looks _ _ _) (enter_looks _ _ _)
          fun entered entered' hentered => ?_) (enter _ _ _)
        refine .bind (isDirectory_agree _) (isDirectory_looks _) (isDirectory_looks _) ?_
        rintro there _ rfl
        have joined (below below' : List String) (hbelow : SameMembers below below') :
            Agree SameMembers (pure (entered ++ below)) (pure (entered' ++ below')) :=
          .pure (hentered.append hbelow)
        exact .ite (.bind (follow _ _) (follow_looks _ _) (follow_looks _ _) joined)
          (.bind (.pure (.refl [])) (.pure []) (.pure []) joined)
    · cases parts with
      | nil => exact .pure (.refl [])
      | cons part parts =>
        rw [View.enter]
        exact .ite (follow _ _) (.pure (.refl []))

def matching (t : FileTree) (p : Pattern) : List String := ((view.filesLike p).run t).1

theorem matching_eq (t : FileTree) (p : Pattern) :
    t.matching p =
      if p.directory then []
      else ((view.follow p.maxSteps p.parts (if p.rooted then "/" else ".")).run t).1.filter
        fun name => t.kind name == .file := by
  rw [matching, View.filesLike]
  split
  · rfl
  · rw [((follow_looks p.maxSteps).1 _ _).run_bind, filterM_run t.run_isFile]

theorem kind_of_mem_matching {t : FileTree} {p : Pattern} {name : String}
    (h : name ∈ t.matching p) : t.kind name = .file := by
  rw [matching_eq] at h
  split at h
  · cases h
  · exact beq_iff_eq.1 (List.mem_filter.1 h).2

theorem Same.matching {t u : FileTree} (h : t.Same u) (p : Pattern) :
    SameMembers (t.matching p) (u.matching p) := by
  rw [matching_eq, matching_eq]
  simp only [h.kind_eq]
  split
  · exact .refl []
  · exact ((follow_agree p.maxSteps).1 _ _ h).filter _

theorem expansion_eq (t : FileTree) (argument : String) :
    t.expansion argument =
      match t.kind argument with
      | .file => .files [argument]
      | .directory => t.scan argument
      | .missing =>
          match Pattern.ofText? argument with
          | none => .refused (.malformedPattern argument)
          | some p =>
              match t.matching p with
              | [] => .unmatched
              | files => .files files := by
  cases hkind : t.kind argument with
  | directory => exact expansion_directory hkind
  | file =>
    have kind_run : (view.kind argument).run t = (.file, t) := congrArg (·, t) hkind
    rw [expansion, View.expand, StateT.run_bind, kind_run]
    rfl
  | missing =>
    have kind_run : (view.kind argument).run t = (.missing, t) := congrArg (·, t) hkind
    rw [expansion, View.expand, StateT.run_bind, kind_run]
    dsimp only
    cases Pattern.ofText? argument with
    | none => rfl
    | some p =>
      change ((view.filesLike p >>= (_ : List String → StateM FileTree Expansion)).run t).1 = _
      rw [(filesLike_looks p).run_bind]
      dsimp only [matching]
      cases ((view.filesLike p).run t).1 <;> rfl

/-- Only a directory has to be listed for its argument; a pattern passes over those that can not
be. -/
theorem expansion_refused_iff {t : FileTree} {argument : String} {cause : Refusal} :
    t.expansion argument = .refused cause ↔
      (t.kind argument = .directory ∧ t.names argument = none ∧
          cause = .unlistedDirectory argument) ∨
        (t.kind argument = .missing ∧ Pattern.ofText? argument = none ∧
          cause = .malformedPattern argument) := by
  rw [expansion_eq]
  cases t.kind argument with
  | file => simp
  | directory =>
    rw [scan]
    cases t.names argument <;> simp [eq_comm]
  | missing =>
    cases Pattern.ofText? argument with
    | none => simp [eq_comm]
    | some p =>
      dsimp only
      cases t.matching p <;> simp

example :
    let t : FileTree :=
      ⟨[(["d"], .directory), (["api.json", "d"], .file (.text ""))], [], [["d"]]⟩
    t.expansion "d" = .refused (.unlistedDirectory "d") ∧
      t.expansion "d/api.json" = .files ["d/api.json"] ∧ t.expansion "d/*.json" = .unmatched := by
  decide +kernel

end FileTree

namespace Expansion

def found : Expansion → List String
  | .files names => names
  | .unmatched | .refused _ => []

def isRefused : Expansion → Bool
  | .refused _ => true
  | .files _ | .unmatched => false

inductive Alike : Expansion → Expansion → Prop
  | files {names names' : List String} : SameMembers names names' →
      Alike (.files names) (.files names')
  | unmatched : Alike .unmatched .unmatched
  | refused (cause : Refusal) : Alike (.refused cause) (.refused cause)

theorem Alike.found {x y : Expansion} (h : Alike x y) : SameMembers x.found y.found := by
  cases h with
  | files h => exact h
  | unmatched | refused => exact .refl []

theorem Alike.isRefused {x y : Expansion} (h : Alike x y) : y.isRefused = x.isRefused := by
  cases h <;> rfl

end Expansion

namespace FileTree

theorem kind_of_mem_expansion {t : FileTree} {argument name : String}
    (h : name ∈ (t.expansion argument).found) : t.kind name = .file := by
  rw [expansion_eq] at h
  cases hkind : t.kind argument with
  | file =>
    rw [hkind] at h
    rw [List.mem_singleton.1 h, hkind]
  | directory =>
    rw [hkind] at h
    dsimp only [scan] at h
    cases hnames : t.names argument with
    | none =>
      rw [hnames] at h
      cases h
    | some names =>
      rw [hnames] at h
      exact beq_iff_eq.1 (List.mem_filter.1 h).2
  | missing =>
    rw [hkind] at h
    cases hp : Pattern.ofText? argument with
    | none =>
      rw [hp] at h
      cases h
    | some p =>
      rw [hp] at h
      dsimp only at h
      cases hfound : t.matching p with
      | nil =>
        rw [hfound] at h
        cases h
      | cons file files =>
        rw [hfound] at h
        apply kind_of_mem_matching (p := p)
        rw [hfound]
        exact h

theorem Same.scan {t u : FileTree} (h : t.Same u) (directory : String) :
    (t.scan directory).Alike (u.scan directory) := by
  have hnames := h.names directory
  rw [FileTree.scan, FileTree.scan]
  generalize t.names directory = names at hnames
  generalize u.names directory = names' at hnames
  cases hnames with
  | none => exact .refused _
  | some hnames => exact .files (h.projectsAmong directory hnames)

theorem Same.expansion {t u : FileTree} (h : t.Same u) (argument : String) :
    (t.expansion argument).Alike (u.expansion argument) := by
  rw [expansion_eq, expansion_eq, h.kind_eq]
  cases t.kind argument with
  | file => exact .files (.refl _)
  | directory => exact h.scan argument
  | missing =>
    cases Pattern.ofText? argument with
    | none => exact .refused _
    | some p =>
      have hfound := h.matching p
      dsimp only
      generalize t.matching p = files at hfound
      generalize u.matching p = files' at hfound
      cases files with
      | nil =>
        rw [hfound.eq_nil_iff.1 rfl]
        exact .unmatched
      | cons file files =>
        cases files' with
        | nil => cases hfound.eq_nil_iff.2 rfl
        | cons file' files' => exact .files hfound

theorem refused_inputs (t : FileTree) (arguments : List String) :
    (t.inputs arguments).refused.isSome = arguments.any fun a => (t.expansion a).isRefused := by
  induction arguments with
  | nil => rfl
  | cons a as ih =>
    rw [inputs_cons, List.any_cons, ← ih]
    cases t.expansion a <;> rfl

theorem files_inputs {t : FileTree} {arguments : List String}
    (h : (t.inputs arguments).refused = none) :
    (t.inputs arguments).files = arguments.flatMap fun a => (t.expansion a).found := by
  induction arguments with
  | nil => rfl
  | cons a as ih =>
    rw [inputs_cons] at h ⊢
    rw [List.flatMap_cons]
    cases hexp : t.expansion a with
    | refused cause =>
      rw [hexp] at h
      cases h
    | unmatched =>
      rw [hexp] at h
      exact ih h
    | files names =>
      rw [hexp] at h
      exact congrArg (names ++ ·) (ih h)

section

variable {t u : FileTree} {arguments arguments' : List String}

theorem Same.refused_inputs (h : t.Same u) (hargs : SameMembers arguments arguments') :
    (u.inputs arguments').refused.isSome = (t.inputs arguments).refused.isSome := by
  rw [FileTree.refused_inputs, FileTree.refused_inputs, Bool.eq_iff_iff]
  simp only [List.any_eq_true, (h.expansion _).isRefused, hargs _]

theorem Same.files_inputs (h : t.Same u) (hargs : SameMembers arguments arguments')
    (hwell : (t.inputs arguments).refused = none) :
    SameMembers (t.inputs arguments).files (u.inputs arguments').files := by
  have hwell' : (u.inputs arguments').refused = none := by
    rw [← Option.isNone_iff_eq_none, ← Option.not_isSome, h.refused_inputs hargs, hwell]
    rfl
  rw [FileTree.files_inputs hwell, FileTree.files_inputs hwell']
  exact hargs.flatMap fun a => (h.expansion a).found

theorem kind_of_mem_inputs (hwell : (t.inputs arguments).refused = none) {name : String}
    (h : name ∈ (t.inputs arguments).files) : t.kind name = .file := by
  rw [FileTree.files_inputs hwell] at h
  obtain ⟨a, -, hname⟩ := List.mem_flatMap.1 h
  exact kind_of_mem_expansion hname

end

end FileTree

end DocTree.Command
