import DocTree.Proofs.TypeText.Quoting
import DocTree.Proofs.TypeText.Swapping

/-!
# Optional members

The text of a member has a question mark behind its name when the member is optional, unless it is
a method that is written by its signature. So the text of a type, however large, tells which members
of the literals in it are optional, and it says nothing about those methods.
-/
namespace DocTree

open Node (Enters Reaches Swapped)

def Reflection.withFlags (r : Reflection) (flags : Option Flags) : Reflection := { r with flags }

theorem head?_callBy_ne (link : String) (r : Reflection) :
    (callBy TypeExpr.text link r).toList.head? ≠ some '?' := by
  unfold callBy
  dsimp only
  split <;> simp

theorem Reflection.memberText_marked_iff (m : Reflection) :
    ∃ rest, m.memberText = memberName m.name ++ rest ∧
      (rest.toList.head? = some '?' ↔ m.isOptional = true ∧ m.isCalled = false) := by
  rw [memberText_eq]
  cases called : m.isCalled with
  | true =>
    refine ⟨_, memberBy_of_isCalled called, iff_of_false ?_ nofun⟩
    cases m.signatures with
    | nil => simp
    | cons s others => exact head?_callBy_ne _ s
  | false =>
    rw [memberBy_of_not_isCalled called, String.append_assoc, String.append_assoc]
    refine ⟨_, rfl, ?_⟩
    cases m.isOptional <;> simp

theorem Reflection.memberText_withFlags_eq_iff (m : Reflection) (flags : Option Flags) :
    m.memberText = (m.withFlags flags).memberText ↔
      m.isCalled = true ∨ (m.withFlags flags).isOptional = m.isOptional := by
  have kept : (m.withFlags flags).isCalled = m.isCalled := rfl
  rw [memberText_eq, memberText_eq]
  cases called : m.isCalled with
  | true =>
    rw [memberBy_of_isCalled called, memberBy_of_isCalled (kept.trans called)]
    exact iff_of_true rfl (.inl rfl)
  | false =>
    rw [memberBy_of_not_isCalled called, memberBy_of_not_isCalled (kept.trans called)]
    cases m.isOptional <;> cases (m.withFlags flags).isOptional <;>
      simp [withFlags, ← String.toList_inj]

def Flags.optional : Flags := { (default : Flags) with isOptional := some true }

def Reflection.optionalProperty : Reflection := (named "a").withFlags (some .optional)

def Reflection.optionalMethod : Reflection :=
  { Reflection.named "run" with
    kind := .method
    flags := some .optional
    signatures := [{ Reflection.named "run" with
      kind := .callSignature
      type := some (.intrinsic "void") }] }

namespace TypeExpr

def literalWith (r : Reflection) (as bs : List Reflection) (m : Reflection) : TypeExpr :=
  .inline { r with children := as ++ m :: bs }

theorem literalWith_text (r : Reflection) (as bs : List Reflection) (m : Reflection) :
    (literalWith r as bs m).text =
      "\x7b " ++ "; ".intercalate ((as ++ m :: bs).map Reflection.memberText) ++ " \x7d" := by
  have texts : Reflection.memberText = memberBy text := funext Reflection.memberText_eq
  rw [literalWith, text, Reflection.inlineText_eq, Node.inlineBy_append_cons, texts]

theorem literalWith_differ (r : Reflection) (as bs : List Reflection) (m n : Reflection) :
    Differ m.memberText n.memberText (literalWith r as bs m).text (literalWith r as bs n).text := by
  rw [literalWith_text, literalWith_text]
  exact (((Differ.refl _ _).map_intercalate "; " _ as bs).before _).behind _

theorem literalWith_alike (r : Reflection) (as bs : List Reflection) (m n : Reflection) :
    Node.Alike (.type (literalWith r as bs m)) (.type (literalWith r as bs n)) := by
  simp only [Node.Alike, literalWith, isLoose, Reflection.isFunctionLiteral,
    Node.isEmpty_append_cons]

/-- A member of a literal has a question mark behind its name just when it is optional and not
written by a signature. A change of its flags shows in the text of a type, however deep the literal
is in there, just when the literal is written, the member is not written by a signature and it
becomes optional or no longer is. -/
theorem optional_shown_iff (m : Reflection) :
    (∃ rest, m.memberText = memberName m.name ++ rest ∧
      (rest.toList.head? = some '?' ↔ m.isOptional = true ∧ m.isCalled = false)) ∧
    ∀ (r : Reflection) (as bs : List Reflection),
      (literalWith r as bs m).text =
        "\x7b " ++ "; ".intercalate ((as ++ m :: bs).map Reflection.memberText) ++ " \x7d" ∧
      ∀ flags : Option Flags,
        (∀ t k, Reaches (.type t) k (.type (literalWith r as bs m)) →
          ∃ v u, Swapped (.type (literalWith r as bs m))
            (.type (literalWith r as bs (m.withFlags flags))) v .type (.type t) (.type u)) ∧
        ∀ v t u, Swapped (.type (literalWith r as bs m))
            (.type (literalWith r as bs (m.withFlags flags))) v .type (.type t) (.type u) →
          (t.text ≠ u.text ↔ v = .type ∧ m.isCalled = false ∧
            (m.withFlags flags).isOptional ≠ m.isOptional) := by
  refine ⟨m.memberText_marked_iff, fun r as bs => ⟨literalWith_text r as bs m, fun flags => ?_⟩⟩
  have alike := literalWith_alike r as bs m (m.withFlags flags)
  constructor
  · intro t k path
    obtain ⟨d, run⟩ := path.exists_swapped alike
    obtain ⟨v, swapped⟩ := run .type
    cases d with
    | type u => exact ⟨v, u, swapped⟩
    | reflection => exact (swapped.differ alike).1.elim
  · intro v t u swapped
    have outside : t.text = u.text ↔ _ := (swapped.differ alike).2.eq_iff
    rw [Ne, outside]
    cases v with
    | type =>
      have inside := (literalWith_differ r as bs m (m.withFlags flags)).eq_iff.trans
        (m.memberText_withFlags_eq_iff flags)
      refine (not_congr inside).trans ?_
      rw [not_or, Bool.not_eq_true]
      exact (and_iff_right rfl).symm
    | _ => exact iff_of_false (fun differs => differs rfl) nofun

abbrev literalOf (m : Reflection) : TypeExpr := literalWith (.named "__type") [] [] m

def literalOrNull (m : Reflection) : TypeExpr := .union [literalOf m, .intrinsic "null"]

theorem optional_shown_iff_array :
    (array (literalOrNull (.named "a"))).text = "(\x7b a: any \x7d | null)[]" ∧
    (array (literalOrNull (.named "a"))).text ≠ (array (literalOrNull .optionalProperty)).text ∧
    ∃ v u, Swapped (.type (literalOf (.named "a"))) (.type (literalOf .optionalProperty)) v .type
      (.type (array (literalOrNull (.named "a")))) (.type u) := by
  obtain ⟨-, shown⟩ := optional_shown_iff (.named "a")
  obtain ⟨covered, changed⟩ := (shown (.named "__type") [] []).2 (some .optional)
  have union : Swapped (.type (literalOf (.named "a"))) (.type (literalOf .optionalProperty)) .type
      .type (.type (literalOrNull (.named "a"))) (.type (literalOrNull .optionalProperty)) :=
    Swapped.here.step (@Node.Swap.alternative .type _ _ [] _)
  have path : Reaches (.type (array (literalOrNull (.named "a")))) 3
      (.type (literalOf (.named "a"))) :=
    (Enters.element.reaches).step (.alternative List.mem_cons_self)
  exact ⟨rfl, (changed .type _ _ (union.step .element)).2 ⟨rfl, rfl, by decide⟩, covered _ 3 path⟩

/-- An optional method has no question mark and is written like one that has to be there. -/
theorem optional_method_unmarked :
    Reflection.optionalMethod.isOptional = true ∧
    Reflection.optionalMethod.memberText = "run(): void" ∧
    (literalOf .optionalMethod).text = "\x7b run(): void \x7d" ∧
    ¬ (∀ m : Reflection, ∃ rest, m.memberText = memberName m.name ++ rest ∧
      (rest.toList.head? = some '?' ↔ m.isOptional = true)) ∧
    ¬ ∀ (m r : Reflection) (as bs : List Reflection) (flags : Option Flags),
      (m.withFlags flags).isOptional ≠ m.isOptional →
        (literalWith r as bs m).text ≠ (literalWith r as bs (m.withFlags flags)).text := by
  refine ⟨rfl, rfl, rfl, ?marked, ?changed⟩
  case marked =>
    intro all
    obtain ⟨rest, written, marked⟩ := all .optionalMethod
    have text : "run" ++ "(): void" = "run" ++ rest := written
    obtain rfl : "(): void" = rest := by simpa [← String.toList_inj] using text
    exact absurd (marked.2 rfl) (by decide)
  case changed =>
    intro all
    exact all .optionalMethod (.named "__type") [] [] none (by decide) rfl

end TypeExpr

end DocTree
