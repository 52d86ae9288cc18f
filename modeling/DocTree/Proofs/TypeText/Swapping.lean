import DocTree.Proofs.TypeText.Operands

/-!
# Swapping a node for another one

What a change of one node does to the text around it depends on the manner in which the node is
written: a type, a literal, something to call, a member or a parameter; some nodes of a graph are
not written at all. One step outward keeps everything around the node as it is, and so do all steps
up to the type that the text is of.
-/
namespace DocTree

open Node (Enters Reaches)

def Differ (s s' t t' : String) : Prop :=
  ∃ before behind, t = before ++ s ++ behind ∧ t' = before ++ s' ++ behind

namespace Differ

variable {s s' t t' u u' : String}

theorem refl (s s' : String) : Differ s s' s s' := ⟨"", "", by simp, by simp⟩

theorem nowhere (t : String) : Differ "" "" t t := ⟨t, "", by simp, by simp⟩

theorem trans (h : Differ s s' t t') (h' : Differ t t' u u') : Differ s s' u u' := by
  obtain ⟨before, behind, rfl, rfl⟩ := h
  obtain ⟨front, back, rfl, rfl⟩ := h'
  exact ⟨front ++ before, behind ++ back, by simp only [String.append_assoc],
    by simp only [String.append_assoc]⟩

theorem before (front : String) (h : Differ s s' t t') : Differ s s' (front ++ t) (front ++ t') :=
  h.trans ⟨front, "", by simp, by simp⟩

theorem behind (back : String) (h : Differ s s' t t') : Differ s s' (t ++ back) (t' ++ back) :=
  h.trans ⟨"", back, by simp, by simp⟩

theorem intercalate (sep : String) (as bs : List String) (h : Differ s s' t t') :
    Differ s s' (sep.intercalate (as ++ t :: bs)) (sep.intercalate (as ++ t' :: bs)) := by
  obtain ⟨front, back, written⟩ := exists_intercalate_eq sep as bs
  exact h.trans ⟨front, back, written t, written t'⟩

theorem map_intercalate {α : Type} (sep : String) (f : α → String) (as bs : List α) {a b : α}
    (h : Differ s s' (f a) (f b)) :
    Differ s s' (sep.intercalate ((as ++ a :: bs).map f))
      (sep.intercalate ((as ++ b :: bs).map f)) := by
  simpa only [List.map_append, List.map_cons] using h.intercalate sep (as.map f) (bs.map f)

theorem eq_iff (h : Differ s s' t t') : t = t' ↔ s = s' := by
  obtain ⟨front, back, rfl, rfl⟩ := h
  simp [← String.toList_inj]

end Differ

def Reflection.isCalled (r : Reflection) : Bool :=
  match r.kind, r.signatures with
  | .method, _ :: _ => true
  | _, _ => false

theorem memberBy_of_isCalled {r : Reflection} (h : r.isCalled = true) :
    memberBy TypeExpr.text r =
      memberName r.name ++ r.signatures.head?.elim "" (callBy TypeExpr.text ": ") := by
  unfold Reflection.isCalled at h
  split at h
  · rename_i method first
    simp only [memberBy, method, first, List.head?_cons, Option.elim_some]
  · cases h

theorem memberBy_of_not_isCalled {r : Reflection} (h : r.isCalled = false) :
    memberBy TypeExpr.text r = memberName r.name ++ (if r.isOptional then "?" else "") ++ ": " ++
      declaredBy TypeExpr.text r.type := by
  unfold memberBy
  split
  · rename_i s others method first
    simp [Reflection.isCalled, method, first] at h
  · rfl

/-- The manners in which a node is written. What the text leaves out is hidden. -/
inductive Manner where
  | type
  | literal
  | call (link : String)
  | member
  | parameter
  | typeParameter
  | hidden

namespace Manner

def ofDeclaration : Manner → Manner
  | type => literal
  | _ => hidden

def ofChild : Manner → Manner
  | literal => member
  | _ => hidden

def ofParameter : Manner → Manner
  | call _ => parameter
  | _ => hidden

def ofTypeParameter : Manner → Manner
  | call _ => typeParameter
  | _ => hidden

def ofDeclared (r : Reflection) : Manner → Manner
  | call _ | parameter | typeParameter => type
  | member => if r.isCalled then hidden else type
  | _ => hidden

def ofSignature (r : Reflection) (others : List Reflection) : Manner → Manner
  | literal => if r.children.isEmpty && others.isEmpty then call " => " else hidden
  | member => if r.kind = .method && others.isEmpty then call ": " else hidden
  | _ => hidden

end Manner

namespace Node

def textAs : Manner → Node → String
  | .type, .type t => t.text
  | .literal, .reflection r => inlineBy TypeExpr.text r
  | .call link, .reflection r => callBy TypeExpr.text link r
  | .member, .reflection r => memberBy TypeExpr.text r
  | .parameter, .reflection r => parameterBy TypeExpr.text r
  | .typeParameter, .reflection r => typeParameterBy TypeExpr.text r
  | _, _ => ""

def Alike : Node → Node → Prop
  | type t, type u => t.isLoose = u.isLoose
  | reflection r, reflection s => r.isFunctionLiteral = s.isFunctionLiteral
  | _, _ => False

/-- A node that holds the node `a` directly, before and after `b` is put in its place. The manner
in which the outer node is written gives the one of the inner node. -/
inductive Swap : Manner → Node → Node → Manner → Node → Node → Prop
  | signature {w : Manner} {r c d : Reflection} {as bs : List Reflection} :
      Swap (w.ofSignature r as) (reflection c) (reflection d) w
        (reflection { r with signatures := as ++ c :: bs })
        (reflection { r with signatures := as ++ d :: bs })
  | parameter {w : Manner} {r c d : Reflection} {as bs : List Reflection} :
      Swap w.ofParameter (reflection c) (reflection d) w
        (reflection { r with parameters := as ++ c :: bs })
        (reflection { r with parameters := as ++ d :: bs })
  | child {w : Manner} {r c d : Reflection} {as bs : List Reflection} :
      Swap w.ofChild (reflection c) (reflection d) w
        (reflection { r with children := as ++ c :: bs })
        (reflection { r with children := as ++ d :: bs })
  | typeParameter {w : Manner} {r c d : Reflection} {as bs : List Reflection} :
      Swap w.ofTypeParameter (reflection c) (reflection d) w
        (reflection { r with typeParameters := as ++ c :: bs })
        (reflection { r with typeParameters := as ++ d :: bs })
  | declared {w : Manner} {r : Reflection} {t u : TypeExpr} :
      Swap (w.ofDeclared r) (type t) (type u) w (reflection { r with type := some t })
        (reflection { r with type := some u })
  | argument {w : Manner} {name : String} {t u : TypeExpr} {as bs : List TypeExpr} :
      Swap w (type t) (type u) w (type (.reference name (as ++ t :: bs)))
        (type (.reference name (as ++ u :: bs)))
  | element {w : Manner} {t u : TypeExpr} :
      Swap w (type t) (type u) w (type (.array t)) (type (.array u))
  | alternative {w : Manner} {t u : TypeExpr} {as bs : List TypeExpr} :
      Swap w (type t) (type u) w (type (.union (as ++ t :: bs))) (type (.union (as ++ u :: bs)))
  | constituent {w : Manner} {t u : TypeExpr} {as bs : List TypeExpr} :
      Swap w (type t) (type u) w (type (.intersection (as ++ t :: bs)))
        (type (.intersection (as ++ u :: bs)))
  | component {w : Manner} {t u : TypeExpr} {as bs : List TypeExpr} :
      Swap w (type t) (type u) w (type (.tuple (as ++ t :: bs))) (type (.tuple (as ++ u :: bs)))
  | target {w : Manner} {name : String} {t u : TypeExpr} :
      Swap w (type t) (type u) w (type (.operator name t)) (type (.operator name u))
  | declaration {w : Manner} {c d : Reflection} :
      Swap w.ofDeclaration (reflection c) (reflection d) w (type (.inline c)) (type (.inline d))

/-- A node that holds `a` somewhere below, before and after `b` is put in its place; `v` is how the
two are written when the node above is written as `w`. -/
inductive Swapped (a b : Node) (v : Manner) : Manner → Node → Node → Prop
  | here : Swapped a b v v a b
  | step {w x : Manner} {c d c' d' : Node} :
      Swapped a b v w c d → Swap w c d x c' d' → Swapped a b v x c' d'

variable {a b c d : Node} {v w x : Manner}

theorem Swapped.trans {c' d' : Node} (h : Swapped a b v w c d) (h' : Swapped c d w x c' d') :
    Swapped a b v x c' d' := by
  induction h' with
  | here => exact h
  | step _ last ih => exact ih.step last

theorem isEmpty_append_cons {α : Type} (as bs : List α) (a : α) :
    (as ++ a :: bs).isEmpty = false := by
  cases as <;> rfl

theorem Swap.alike (h : Swap v a b w c d) (hab : a.Alike b) : c.Alike d := by
  cases h with
  | declaration => exact hab
  | signature | child => simp only [Alike, Reflection.isFunctionLiteral, isEmpty_append_cons]
  | _ => rfl

section Types

variable {t u : TypeExpr}

theorem differ_of_types {t' u' : TypeExpr} (w : Manner)
    (h : Differ t.text u.text t'.text u'.text) :
    Differ (textAs w (type t)) (textAs w (type u)) (textAs w (type t')) (textAs w (type u')) := by
  cases w with
  | type => exact h
  | _ => exact .refl "" ""

theorem differ_asOperand (h : t.isLoose = u.isLoose) :
    Differ t.text u.text (t.asOperand t.text) (u.asOperand u.text) := by
  unfold TypeExpr.asOperand
  rw [h]
  split
  · exact ((Differ.refl _ _).before "(").behind ")"
  · exact .refl _ _

theorem differ_of_argument (name : String) (as bs : List TypeExpr) :
    Differ t.text u.text (TypeExpr.reference name (as ++ t :: bs)).text
      (TypeExpr.reference name (as ++ u :: bs)).text := by
  have listed (v : TypeExpr) : (TypeExpr.reference name (as ++ v :: bs)).text =
      name ++ "<" ++ ", ".intercalate ((as ++ v :: bs).map TypeExpr.text) ++ ">" := by
    rw [TypeExpr.text_eq_textStep, textStep]
    split
    · rename_i none
      simp at none
    · rfl
  rw [listed, listed]
  exact (((Differ.refl _ _).map_intercalate ", " _ as bs).before _).behind ">"

theorem differ_of_declared (w : Manner) (r : Reflection) :
    Differ (textAs (w.ofDeclared r) (type t)) (textAs (w.ofDeclared r) (type u))
      (textAs w (reflection { r with type := some t }))
      (textAs w (reflection { r with type := some u })) := by
  cases w with
  | call | parameter | typeParameter => exact (Differ.refl t.text u.text).before _
  | member =>
    rw [Manner.ofDeclared]
    cases called : r.isCalled with
    | true =>
      have written (v : TypeExpr) := memberBy_of_isCalled (r := { r with type := some v }) called
      simp only [if_true, textAs, written]
      exact .nowhere _
    | false =>
      have written (v : TypeExpr) :=
        memberBy_of_not_isCalled (r := { r with type := some v }) called
      rw [if_neg (by decide), textAs, textAs, textAs, textAs, written, written]
      exact (Differ.refl t.text u.text).before _
  | type | literal | hidden => exact .nowhere _

end Types

section Reflections

variable (w : Manner) (r : Reflection) {c d : Reflection} (as bs : List Reflection)

theorem differ_of_signature :
    Differ (textAs (w.ofSignature r as) (reflection c)) (textAs (w.ofSignature r as) (reflection d))
      (textAs w (reflection { r with signatures := as ++ c :: bs }))
      (textAs w (reflection { r with signatures := as ++ d :: bs })) := by
  cases w with
  | literal =>
    rw [Manner.ofSignature, textAs, textAs, inlineBy, inlineBy]
    dsimp only
    cases r.children with
    | nil =>
      cases as with
      | nil => exact .refl _ _
      | cons => exact .nowhere _
    | cons => exact .nowhere _
  | member =>
    rw [Manner.ofSignature, textAs, textAs]
    by_cases method : r.kind = .method
    · rw [memberBy, memberBy]
      dsimp only
      rw [method]
      cases as with
      | nil => exact (Differ.refl _ _).before _
      | cons => exact .nowhere _
    · have notCalled (s : Reflection) :
          ({ r with signatures := as ++ s :: bs } : Reflection).isCalled = false := by
        unfold Reflection.isCalled
        split
        · contradiction
        · rfl
      rw [memberBy_of_not_isCalled (notCalled c), memberBy_of_not_isCalled (notCalled d),
        decide_eq_false method]
      exact .nowhere _
  | _ => exact .nowhere _

theorem differ_of_parameter :
    Differ (textAs w.ofParameter (reflection c)) (textAs w.ofParameter (reflection d))
      (textAs w (reflection { r with parameters := as ++ c :: bs }))
      (textAs w (reflection { r with parameters := as ++ d :: bs })) := by
  cases w with
  | call link =>
    have list := (Differ.refl (parameterBy TypeExpr.text c)
      (parameterBy TypeExpr.text d)).map_intercalate ", " (parameterBy TypeExpr.text) as bs
    exact (((list.before _).behind ")").behind link).behind _
  | _ => exact .nowhere _

theorem inlineBy_append_cons (m : Reflection) :
    inlineBy TypeExpr.text { r with children := as ++ m :: bs } =
      "\x7b " ++ "; ".intercalate ((as ++ m :: bs).map (memberBy TypeExpr.text)) ++ " \x7d" := by
  cases as <;> rfl

theorem differ_of_child :
    Differ (textAs w.ofChild (reflection c)) (textAs w.ofChild (reflection d))
      (textAs w (reflection { r with children := as ++ c :: bs }))
      (textAs w (reflection { r with children := as ++ d :: bs })) := by
  cases w with
  | literal =>
    rw [textAs, textAs, inlineBy_append_cons, inlineBy_append_cons]
    exact (((Differ.refl _ _).map_intercalate "; " _ as bs).before _).behind _
  | _ => exact .nowhere _

theorem differ_of_typeParameter :
    Differ (textAs w.ofTypeParameter (reflection c)) (textAs w.ofTypeParameter (reflection d))
      (textAs w (reflection { r with typeParameters := as ++ c :: bs }))
      (textAs w (reflection { r with typeParameters := as ++ d :: bs })) := by
  cases w with
  | call link =>
    have listed (p : Reflection) :
        callBy TypeExpr.text link { r with typeParameters := as ++ p :: bs } =
          "<" ++ ", ".intercalate ((as ++ p :: bs).map (typeParameterBy TypeExpr.text)) ++ ">" ++
            "(" ++ ", ".intercalate (r.parameters.map (parameterBy TypeExpr.text)) ++ ")" ++ link ++
              declaredBy TypeExpr.text r.type := by
      simp only [callBy, List.isEmpty_map, isEmpty_append_cons]
      rfl
    rw [textAs, textAs, listed, listed]
    have list := (Differ.refl (typeParameterBy TypeExpr.text c)
      (typeParameterBy TypeExpr.text d)).map_intercalate ", " (typeParameterBy TypeExpr.text) as bs
    have front := (list.before "<").behind ">"
    exact ((((front.behind "(").behind _).behind ")").behind link).behind _
  | _ => exact .nowhere _

end Reflections

theorem Swap.differ (h : Swap v a b w c d) (hab : a.Alike b) :
    Differ (a.textAs v) (b.textAs v) (c.textAs w) (d.textAs w) := by
  cases h with
  | signature => exact differ_of_signature _ _ _ _
  | parameter => exact differ_of_parameter _ _ _ _
  | child => exact differ_of_child _ _ _ _
  | typeParameter => exact differ_of_typeParameter _ _ _ _
  | declared => exact differ_of_declared _ _
  | argument => exact differ_of_types _ (differ_of_argument _ _ _)
  | element =>
    refine differ_of_types _ ?_
    rw [TypeExpr.text, TypeExpr.text]
    exact (differ_asOperand hab).behind "[]"
  | @alternative w t u as bs =>
    refine differ_of_types _ ?_
    rw [TypeExpr.text, TypeExpr.text, typeTexts_eq_map, typeTexts_eq_map]
    exact (Differ.refl _ _).map_intercalate " | " _ as bs
  | @constituent w t u as bs =>
    refine differ_of_types _ ?_
    rw [TypeExpr.text, TypeExpr.text, operandTexts_eq_map, operandTexts_eq_map]
    exact (differ_asOperand hab).map_intercalate " & " (fun t => t.asOperand t.text) as bs
  | @component w t u as bs =>
    refine differ_of_types _ ?_
    rw [TypeExpr.text, TypeExpr.text, typeTexts_eq_map, typeTexts_eq_map]
    exact (((Differ.refl _ _).map_intercalate ", " _ as bs).before "[").behind "]"
  | target =>
    refine differ_of_types _ ?_
    rw [TypeExpr.text, TypeExpr.text]
    exact (differ_asOperand hab).before _
  | @declaration w c d =>
    cases w with
    | type =>
      rw [textAs, textAs, TypeExpr.text, TypeExpr.text, c.inlineText_eq, d.inlineText_eq]
      exact .refl _ _
    | _ => exact .refl "" ""

theorem Swapped.differ (h : Swapped a b v w c d) (hab : a.Alike b) :
    c.Alike d ∧ Differ (a.textAs v) (b.textAs v) (c.textAs w) (d.textAs w) := by
  -- an operand gets its parentheses by what it is, so each step needs that the two are alike
  induction h with
  | here => exact ⟨hab, .refl _ _⟩
  | step _ last ih =>
    obtain ⟨alike, differ⟩ := ih
    exact ⟨last.alike alike, differ.trans (last.differ alike)⟩

theorem exists_swap_of_mem {α : Type} {x : α} {xs : List α} (hx : x ∈ xs) (y : α)
    (part : α → Node) (whole : List α → Node) (inner : List α → Manner → Manner)
    (swap : ∀ as bs w, Swap (inner as w) (part x) (part y) w (whole (as ++ x :: bs))
      (whole (as ++ y :: bs))) :
    ∃ d, ∀ w, ∃ v, Swap v (part x) (part y) w (whole xs) d := by
  obtain ⟨as, bs, rfl⟩ := List.append_of_mem hx
  exact ⟨_, fun w => ⟨_, swap as bs w⟩⟩

theorem Enters.exists_swap {k : Nat} (h : Enters c k a) (hab : a.Alike b) :
    ∃ d, ∀ w, ∃ v, Swap v a b w c d := by
  cases b with
  | reflection y =>
    cases h with
    | @signature r x hx =>
      have swap := exists_swap_of_mem hx y reflection
        (fun xs => reflection { r with signatures := xs }) (fun as w => w.ofSignature r as)
        fun _ _ _ => .signature
      cases r
      exact swap
    | @parameter r x hx =>
      have swap := exists_swap_of_mem hx y reflection
        (fun xs => reflection { r with parameters := xs }) (fun _ => Manner.ofParameter)
        fun _ _ _ => .parameter
      cases r
      exact swap
    | @child r x hx =>
      have swap := exists_swap_of_mem hx y reflection
        (fun xs => reflection { r with children := xs }) (fun _ => Manner.ofChild)
        fun _ _ _ => .child
      cases r
      exact swap
    | @typeParameter r x hx =>
      have swap := exists_swap_of_mem hx y reflection
        (fun xs => reflection { r with typeParameters := xs }) (fun _ => Manner.ofTypeParameter)
        fun _ _ _ => .typeParameter
      cases r
      exact swap
    | declaration => exact ⟨_, fun w => ⟨_, .declaration⟩⟩
    | _ => exact hab.elim
  | type u =>
    cases h with
    | @declared r t ht =>
      refine ⟨reflection { r with type := some u }, fun w => ⟨w.ofDeclared r, ?_⟩⟩
      have swap : Swap (w.ofDeclared r) (type t) (type u) w (reflection { r with type := some t })
        (reflection { r with type := some u }) := .declared
      rw [← ht] at swap
      cases r
      exact swap
    | @argument name ts t ht =>
      exact exists_swap_of_mem ht u type (fun ts => type (.reference name ts)) (fun _ w => w)
        fun _ _ _ => .argument
    | @alternative ts t ht =>
      exact exists_swap_of_mem ht u type (fun ts => type (.union ts)) (fun _ w => w)
        fun _ _ _ => .alternative
    | @constituent ts t ht =>
      exact exists_swap_of_mem ht u type (fun ts => type (.intersection ts)) (fun _ w => w)
        fun _ _ _ => .constituent
    | @component ts t ht =>
      exact exists_swap_of_mem ht u type (fun ts => type (.tuple ts)) (fun _ w => w)
        fun _ _ _ => .component
    | element => exact ⟨_, fun w => ⟨_, .element⟩⟩
    | target => exact ⟨_, fun w => ⟨_, .target⟩⟩
    | _ => exact hab.elim

theorem Reaches.exists_swapped {k : Nat} (h : Reaches c k a) (hab : a.Alike b) :
    ∃ d, ∀ w, ∃ v, Swapped a b v w c d := by
  induction h generalizing b with
  | here => exact ⟨b, fun w => ⟨w, .here⟩⟩
  | step _ last ih =>
    obtain ⟨d, step⟩ := last.exists_swap hab
    -- what takes the place of the node does not depend on how it is written
    obtain ⟨v, swap⟩ := step .hidden
    obtain ⟨e, run⟩ := ih (swap.alike hab)
    refine ⟨e, fun w => ?_⟩
    obtain ⟨x, outer⟩ := run w
    obtain ⟨y, inner⟩ := step x
    exact ⟨y, (Swapped.here.step inner).trans outer⟩

end Node

end DocTree
