import DocTree.Command.FileName
import Mathlib.Data.List.Chain
import Mathlib.Data.List.Lex
import Mathlib.Data.List.Sort
import Mathlib.Data.Prod.Lex
import Mathlib.Data.String.Basic

/-!
# The order of names

Names are compared by their components alone, and of names with the same components one is kept.
What is left is in strict order, so it is settled by which components there are: neither the order
nor the number of the names that are sorted makes a difference. Only the spelling of a name that is
kept may be that of another one with the same components.
-/
namespace DocTree.Command

def sortKey (name : String) : List (Nat ×ₗ String) := (components name).map toLex

theorem componentsLE_iff (as bs : List Component) :
    componentsLE as bs = true ↔ as.map toLex ≤ bs.map toLex := by
  rw [← not_lt]
  induction as generalizing bs with
  | nil => simp [componentsLE]
  | cons a as ih =>
    cases bs with
    | nil => simp [componentsLE]
    | cons b bs =>
      obtain ⟨m, a⟩ := a
      obtain ⟨n, b⟩ := b
      rw [List.map_cons, List.map_cons, List.cons_lt_cons_iff, Prod.Lex.toLex_lt_toLex,
        toLex_inj, Prod.mk.injEq, componentsLE]
      split
      · rename_i h
        obtain ⟨rfl, rfl⟩ := h
        simp [ih]
      · rename_i h
        rcases lt_trichotomy m n with hm | rfl | hm
        · simp [hm, hm.not_gt, hm.ne']
        · have hne : a ≠ b := fun hab => h ⟨rfl, hab⟩
          have one_way : a < b ↔ ¬ b < a := by rw [not_lt, hne.le_iff_lt]
          simp only [lt_irrefl, decide_false, beq_self_eq_true, Bool.true_and, Bool.false_or,
            decide_eq_true_eq, hne.symm, true_and, false_and, false_or, or_false, one_way]
        · simp [hm, hm.not_gt, hm.ne']

abbrev NotAfter : String → String → Prop := Order.Preimage sortKey (· ≤ ·)

theorem notAfter_iff {a b : String} :
    NotAfter a b ↔ componentsLE (components a) (components b) = true :=
  (componentsLE_iff _ _).symm

theorem insertName_eq (a : String) (names : List String) :
    insertName a names = names.orderedInsert NotAfter a := by
  induction names with
  | nil => rfl
  | cons b bs ih => simp only [insertName, List.orderedInsert_cons, ih, notAfter_iff]

theorem foldr_insertName (names : List String) :
    names.foldr insertName [] = names.insertionSort NotAfter := by
  induction names with
  | nil => rfl
  | cons a as ih => rw [List.foldr_cons, ih, insertName_eq, List.insertionSort_cons]

section repeats

variable {α : Type} [BEq α] (f : String → α) (names : List String)

theorem dropRepeats_sublist (same : String → String → Bool) (names : List String) :
    (dropRepeats same names).Sublist names := by
  induction names with
  | nil => exact .refl _
  | cons a as ih =>
    rw [dropRepeats]
    split
    · exact .cons_cons a (List.nil_sublist as)
    · rename_i b bs heq
      rw [heq] at ih
      split
      · exact .cons_cons a ((List.sublist_cons_self b bs).trans ih)
      · exact .cons_cons a ih

variable [LawfulBEq α]

theorem isChain_dropRepeats :
    ((dropRepeats (fun a b => f a == f b) names).map f).IsChain (· ≠ ·) := by
  induction names with
  | nil => exact .nil
  | cons a as ih =>
    rw [dropRepeats]
    split
    · exact .singleton _
    · rename_i b bs heq
      rw [heq, List.map_cons] at ih
      split
      · rename_i hab
        rwa [List.map_cons, beq_iff_eq.1 hab]
      · rename_i hab
        exact .cons_cons (fun h => hab (beq_iff_eq.2 h)) ih

theorem mem_map_dropRepeats (k : α) :
    k ∈ (dropRepeats (fun a b => f a == f b) names).map f ↔ k ∈ names.map f := by
  induction names with
  | nil => rfl
  | cons a as ih =>
    rw [dropRepeats, List.map_cons, List.mem_cons, ← ih]
    split
    · rename_i heq
      rw [heq, List.map_singleton, List.mem_singleton, List.map_nil]
      simp
    · rename_i b bs heq
      rw [heq, List.map_cons, List.mem_cons]
      split
      · rename_i hab
        rw [List.map_cons, List.mem_cons, beq_iff_eq.1 hab, ← or_assoc, or_self]
      · rw [List.map_cons, List.map_cons, List.mem_cons, List.mem_cons]

end repeats

theorem mem_of_mem_sortNames {name : String} {names : List String} (h : name ∈ sortNames names) :
    name ∈ names := by
  have sorted := (dropRepeats_sublist _ _).subset h
  rw [foldr_insertName] at sorted
  exact (List.mem_insertionSort _).1 sorted

theorem mem_map_sortNames {c : List Component} {names : List String} :
    c ∈ (sortNames names).map components ↔ c ∈ names.map components := by
  rw [sortNames, mem_map_dropRepeats, foldr_insertName]
  exact ((List.perm_insertionSort _ _).map components).mem_iff

theorem map_sortKey (names : List String) :
    names.map sortKey = (names.map components).map (List.map toLex) := List.map_map.symm

theorem sortNames_sorted (names : List String) :
    ((sortNames names).map sortKey).Pairwise (· < ·) := by
  have ordered : ((sortNames names).map sortKey).Pairwise (· ≤ ·) := by
    rw [List.pairwise_map]
    refine List.Pairwise.sublist (dropRepeats_sublist _ _) ?_
    rw [foldr_insertName]
    exact List.pairwise_insertionSort NotAfter names
  have distinct : ((sortNames names).map sortKey).IsChain (· ≠ ·) := by
    rw [map_sortKey, List.isChain_map]
    exact (isChain_dropRepeats components _).imp fun a b hne heq =>
      hne (List.map_injective_iff.2 toLex.injective heq)
  rw [← List.isChain_iff_pairwise, List.isChain_iff_getElem]
  exact fun i hi =>
    lt_of_le_of_ne (List.isChain_iff_getElem.1 ordered.isChain i hi)
      (List.isChain_iff_getElem.1 distinct i hi)

theorem sortNames_congr {names names' : List String} (h : ∀ name, name ∈ names ↔ name ∈ names') :
    (sortNames names).map components = (sortNames names').map components := by
  have keys_eq : (sortNames names).map sortKey = (sortNames names').map sortKey := by
    refine (sortNames_sorted names).eq_of_mem_iff (sortNames_sorted names') fun k => ?_
    simp only [map_sortKey, List.mem_map (l := List.map _ _), mem_map_sortNames]
    simp only [List.mem_map, h]
  rw [map_sortKey, map_sortKey] at keys_eq
  exact List.map_injective_iff.2 (List.map_injective_iff.2 toLex.injective) keys_eq

end DocTree.Command
