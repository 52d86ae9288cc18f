import DocTree.Command.FileTree
import DocTree.Command.Run

/-!
# Looking at a file tree

Finding out how to convert projects and which files the arguments stand for only
looks at the file tree. The tree is the same afterwards, whatever is found.
-/
namespace DocTree.Command

/-- An action that leaves the file tree as it is. -/
def Looks {α : Type} (x : StateM FileTree α) : Prop := ∀ t, (x.run t).2 = t

namespace Looks

variable {α β : Type}

theorem pure (a : α) : Looks (Pure.pure a) := fun _ => rfl

theorem bind {x : StateM FileTree α} {f : α → StateM FileTree β} (hx : Looks x)
    (hf : ∀ a, Looks (f a)) : Looks (x >>= f) := by
  intro t
  change ((f (x.run t).1).run (x.run t).2).2 = t
  rw [hx t]
  exact hf _ t

theorem run_bind {x : StateM FileTree α} (hx : Looks x) (f : α → StateM FileTree β)
    (t : FileTree) : (x >>= f).run t = (f (x.run t).1).run t := by
  change (f (x.run t).1).run (x.run t).2 = _
  rw [hx t]

theorem bind_congr {x y : StateM FileTree α} {f g : α → StateM FileTree β} {t : FileTree}
    (hx : Looks x) (hy : Looks y) (hxy : (x.run t).1 = (y.run t).1)
    (hfg : ∀ a, a = (x.run t).1 → ((f a).run t).1 = ((g a).run t).1) :
    ((x >>= f).run t).1 = ((y >>= g).run t).1 := by
  rw [hx.run_bind, hy.run_bind, ← hxy, hfg _ rfl]

theorem ite {p : Prop} [Decidable p] {x y : StateM FileTree α} (hx : Looks x) (hy : Looks y) :
    Looks (if p then x else y) := by
  split
  · exact hx
  · exact hy

theorem mapM {f : α → StateM FileTree β} (hf : ∀ a, Looks (f a)) (as : List α) :
    Looks (as.mapM f) := by
  induction as with
  | nil =>
    rw [List.mapM_nil]
    exact pure _
  | cons a as ih =>
    rw [List.mapM_cons]
    exact (hf a).bind fun b => ih.bind fun bs => pure _

theorem run_mapM {f : α → StateM FileTree β} (hf : ∀ a, Looks (f a)) (as : List α)
    (t : FileTree) : ((as.mapM f).run t).1 = as.map fun a => ((f a).run t).1 := by
  induction as with
  | nil => rfl
  | cons a as ih =>
    rw [List.mapM_cons, (hf a).run_bind, (mapM hf as).run_bind, List.map_cons, ← ih]
    rfl

theorem filterM {f : α → StateM FileTree Bool} (hf : ∀ a, Looks (f a)) (as : List α) :
    Looks (as.filterM f) := by
  have from_kept : ∀ kept, Looks (as.filterAuxM f kept) := by
    induction as with
    | nil => exact fun kept => pure _
    | cons a as ih => exact fun kept => (hf a).bind fun b => ih _
  exact (from_kept []).bind fun bs => pure _

end Looks

namespace FileTree

abbrev view : View (StateM FileTree) := disk.toView

theorem kind_looks (name : String) : Looks (view.kind name) := fun _ => rfl

theorem names_looks (name : String) : Looks (view.names name) := fun _ => rfl

theorem read_looks (name : String) : Looks (view.read name) := fun _ => rfl

theorem here_looks : Looks view.here := fun _ => rfl

theorem isFile_looks (name : String) : Looks (view.isFile name) := fun _ => rfl

theorem isDirectory_looks (name : String) : Looks (view.isDirectory name) := fun _ => rfl

theorem isPresent_looks (name : String) : Looks (view.isPresent name) := fun _ => rfl

-- The three ways to follow a pattern call each other with one step less, so they go together.
theorem follow_looks (fuel : Nat) :
    (∀ parts path, Looks (view.follow fuel parts path)) ∧
      (∀ parts name path, Looks (view.visit fuel parts name path)) ∧
      ∀ parts name path, Looks (view.enter fuel parts name path) := by
  induction fuel with
  | zero =>
    refine ⟨fun parts path => ?_, fun parts name path => ?_, fun parts name path => ?_⟩
    · rw [View.follow]
      exact .pure _
    · rw [View.visit]
      exact .pure _
    · rw [View.enter]
      exact .pure _
  | succ fuel ih =>
    obtain ⟨follow, visit, enter⟩ := ih
    refine ⟨fun parts path => ?_, fun parts name path => ?_, fun parts name path => ?_⟩
    · cases parts with
      | nil => exact .pure _
      | cons part parts =>
        rw [View.follow]
        cases part.literal? with
        | some name =>
          have next (there : Bool) :
              Looks (if there then view.follow fuel parts (entryName path name) else pure []) :=
            .ite (follow _ _) (.pure _)
          exact .ite (.bind (isDirectory_looks _) next) (.bind (isPresent_looks _) next)
        | none =>
          refine .bind (isDirectory_looks _) fun there => .ite ?_ (.pure _)
          refine .bind (names_looks _) fun names => ?_
          cases names with
          | none => exact .pure _
          | some names =>
            refine .bind (.mapM (fun name => follow _ _) _) fun dots => ?_
            exact .bind (.mapM (fun name => visit _ _ _) _) fun found => .pure _
    · rw [View.visit]
      cases mergeDeep parts with
      | nil => exact .pure _
      | cons part parts =>
        refine .ite (.bind (enter _ _ _) fun entered => .bind (isDirectory_looks _) fun there => ?_)
          (enter _ _ _)
        exact .ite (.bind (follow _ _) fun below => .pure _) (.bind (.pure _) fun below => .pure _)
    · cases parts with
      | nil => exact .pure _
      | cons part parts =>
        rw [View.enter]
        exact .ite (follow _ _) (.pure _)

theorem filesLike_looks (p : Pattern) : Looks (view.filesLike p) := by
  refine .ite (.pure _) ?_
  exact .bind ((follow_looks p.maxSteps).1 _ _) fun found => .filterM isFile_looks _

theorem expand_looks (argument : String) : Looks (view.expand argument) := by
  refine .bind (kind_looks _) fun kind => ?_
  cases kind with
  | file => exact .pure _
  | directory =>
    refine .bind (names_looks _) fun names => ?_
    cases names with
    | none => exact .pure _
    | some names => exact .bind (.filterM isFile_looks _) fun files => .pure _
  | missing =>
    cases Pattern.ofText? argument with
    | none => exact .pure _
    | some p =>
      refine .bind (filesLike_looks p) fun files => ?_
      cases files with
      | nil => exact .pure _
      | cons name names => exact .pure _

theorem inputs_looks (arguments : List String) : Looks (view.inputs arguments) := by
  induction arguments with
  | nil => exact .pure _
  | cons a as ih =>
    refine .bind (expand_looks a) fun expansion => ?_
    cases expansion with
    | refused cause => exact .pure _
    | unmatched => exact .bind ih fun rest => .pure _
    | files names => exact .bind ih fun rest => .pure _

theorem readOptions_looks (file : Option String) : Looks (readOptions view file) := by
  cases file with
  | none => exact .pure _
  | some file =>
    refine .bind (read_looks file) fun text => ?_
    cases text with
    | error cause => exact .pure _
    | ok text =>
      dsimp only
      cases Options.ofText text <;> exact .pure _

theorem conversion_looks (a : Arguments) : Looks (conversion view a) := by
  refine .bind (readOptions_looks _) fun options => ?_
  cases options with
  | error failure => exact .pure _
  | ok options =>
    refine .bind here_looks fun here => ?_
    cases here with
    | none => exact .pure _
    | some here => cases Renderer.ofName? a.rendererName <;> exact .pure _

end FileTree

end DocTree.Command
