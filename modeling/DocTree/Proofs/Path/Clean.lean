import DocTree.Proofs.Path.Text

/-!
# Clean paths

In a clean path the steps up stand before all steps into directories, and a rooted path has no
steps up. Cleaning makes such a path and leaves one as it is. To go on from a path is to go on
from its clean form: steps that keep it clean are added to it, and steps up take back as many
steps into directories.
-/
namespace DocTree

namespace Path

/-- Steps, given with the last one first, of which no step up takes back another. -/
structure Settled (rooted : Bool) (done : List Step) : Prop where
  ups_first : done.Pairwise fun t s => t = .up → s = .up
  below_root : rooted = true → Step.up ∉ done

def IsClean (p : Path) : Prop := Settled p.rooted p.steps.reverse

section pushStep

variable {rooted : Bool} {done : List Step}

theorem settled_nil (rooted : Bool) : Settled rooted [] :=
  ⟨.nil, fun _ => List.not_mem_nil⟩

theorem Settled.sublist {before : List Step} (h : Settled rooted done)
    (hsub : before.Sublist done) : Settled rooted before :=
  ⟨h.ups_first.sublist hsub, fun hr hup => h.below_root hr (hsub.subset hup)⟩

theorem pushStep_settled (h : Settled rooted done) (s : Step) :
    Settled rooted (pushStep rooted done s) := by
  cases s with
  | into name =>
    refine ⟨List.pairwise_cons.2 ⟨by simp, h.ups_first⟩, fun hr => ?_⟩
    simpa [pushStep] using h.below_root hr
  | up =>
    cases done with
    | nil => cases rooted <;> constructor <;> simp [pushStep]
    | cons last before =>
      cases last with
      | into name => exact h.sublist (List.sublist_cons_self _ _)
      | up =>
        have before_ups := (List.pairwise_cons.1 h.ups_first).1
        refine ⟨List.pairwise_cons.2 ⟨fun s hs _ => ?_, h.ups_first⟩, fun hr => ?_⟩
        · rcases List.mem_cons.1 hs with rfl | hs
          · rfl
          · exact before_ups s hs rfl
        · exact absurd List.mem_cons_self (h.below_root hr)

theorem Settled.pushStep_eq {s : Step} (h : Settled rooted (s :: done)) :
    pushStep rooted done s = s :: done := by
  cases s with
  | into name => rfl
  | up =>
    cases done with
    | nil =>
      have unrooted : ¬ rooted = true := fun hr => h.below_root hr List.mem_cons_self
      rw [pushStep, if_neg unrooted]
    | cons last before =>
      have last_up : last = .up := (List.pairwise_cons.1 h.ups_first).1 last List.mem_cons_self rfl
      rw [last_up, pushStep]

theorem count_up_le_pushStep (rooted : Bool) (done : List Step) (s : Step) :
    done.count .up ≤ (pushStep rooted done s).count .up := by
  cases s with
  | into name => exact List.count_le_count_cons
  | up =>
    cases done with
    | nil => exact Nat.zero_le _
    | cons last before =>
      cases last with
      | into name => simp [pushStep]
      | up => exact List.count_le_count_cons

theorem mem_pushStep {s t : Step} (h : t ∈ pushStep rooted done s) : t = s ∨ t ∈ done := by
  cases s with
  | into name => exact List.mem_cons.1 h
  | up =>
    cases done with
    | nil => cases rooted <;> simp_all [pushStep]
    | cons last before =>
      cases last with
      | into name => exact .inr (List.mem_cons_of_mem _ h)
      | up => exact List.mem_cons.1 h

end pushStep

section foldl

variable {rooted : Bool} {done : List Step}

theorem foldl_settled (h : Settled rooted done) (steps : List Step) :
    Settled rooted (steps.foldl (pushStep rooted) done) := by
  induction steps generalizing done with
  | nil => exact h
  | cons s steps ih => exact ih (pushStep_settled h s)

theorem Settled.foldl_eq {steps : List Step} (h : Settled rooted (steps.reverse ++ done)) :
    steps.foldl (pushStep rooted) done = steps.reverse ++ done := by
  induction steps generalizing done with
  | nil => rfl
  | cons s steps ih =>
    rw [List.reverse_cons, List.append_assoc, List.singleton_append] at h ⊢
    have hs : Settled rooted (s :: done) := h.sublist (List.sublist_append_right _ _)
    rw [List.foldl_cons, hs.pushStep_eq, ih h]

theorem foldl_ups (rooted : Bool) {above : List Step} (h : Step.up ∉ above) (done : List Step) :
    (List.replicate above.length Step.up).foldl (pushStep rooted) (above ++ done) = done := by
  induction above with
  | nil => rfl
  | cons last above ih =>
    rw [List.mem_cons, not_or] at h
    cases last with
    | into name => exact ih h.2
    | up => exact absurd rfl h.1

theorem count_up_le_foldl (rooted : Bool) (done steps : List Step) :
    done.count .up ≤ (steps.foldl (pushStep rooted) done).count .up := by
  induction steps generalizing done with
  | nil => exact Nat.le_refl _
  | cons s steps ih => exact Nat.le_trans (count_up_le_pushStep rooted done s) (ih _)

theorem mem_foldl_pushStep {t : Step} {steps : List Step}
    (h : t ∈ steps.foldl (pushStep rooted) done) : t ∈ steps ∨ t ∈ done := by
  induction steps generalizing done with
  | nil => exact .inr h
  | cons s steps ih =>
    rcases ih h with ht | ht
    · exact .inl (List.mem_cons_of_mem _ ht)
    · rcases mem_pushStep ht with rfl | ht
      · exact .inl List.mem_cons_self
      · exact .inr ht

end foldl

theorem clean_steps (p : Path) :
    p.clean.steps.reverse = p.steps.foldl (pushStep p.rooted) [] := List.reverse_reverse _

theorem clean_isClean (p : Path) : p.clean.IsClean := by
  rw [IsClean, clean_steps]
  exact foldl_settled (settled_nil _) _

theorem IsClean.clean_eq {p : Path} (h : p.IsClean) : p.clean = p := by
  have hsteps : p.steps.foldl (pushStep p.rooted) [] = p.steps.reverse ++ [] :=
    Settled.foldl_eq (by rw [List.append_nil]; exact h)
  rw [clean, hsteps, List.append_nil, List.reverse_reverse]

theorem clean_readable {p : Path} (h : ∀ s ∈ p.steps, s.Readable) :
    ∀ s ∈ p.clean.steps, s.Readable := by
  intro s hs
  rw [← List.mem_reverse, clean_steps] at hs
  rcases mem_foldl_pushStep hs with hs | hs
  · exact h s hs
  · exact absurd hs List.not_mem_nil

theorem clean_append (rooted : Bool) (steps more : List Step) :
    (clean ⟨rooted, steps ++ more⟩).steps.reverse =
      more.foldl (pushStep rooted) (clean ⟨rooted, steps⟩).steps.reverse := by
  rw [clean_steps, clean_steps, List.foldl_append]

end Path

def cleanedPath (s : String) : String := (Path.ofText s).clean.text

theorem ofText_cleanedPath (s : String) : Path.ofText (cleanedPath s) = (Path.ofText s).clean :=
  Path.ofText_text (Path.clean_readable (Path.ofText_readable s))

theorem cleanedPath_eq_iff {s t : String} :
    cleanedPath s = cleanedPath t ↔ (Path.ofText s).clean = (Path.ofText t).clean := by
  constructor
  · intro h
    rw [← ofText_cleanedPath, ← ofText_cleanedPath, h]
  · exact fun h => congrArg Path.text h

end DocTree
