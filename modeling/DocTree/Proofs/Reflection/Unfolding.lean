import DocTree.Proofs.Reflection.Depth
import DocTree.TypeText
import Mathlib.Data.List.Basic
import Mathlib.Logic.Function.Iterate

/-!
# Unfolding the recursions over a graph

One step of a recursion leaves what is further down to a function that is given: the walk
through the children of a reflection, and the writing of a type with the types inside of it.
The walk and the text are what such a step makes of themselves. Where the paths of a graph are
bounded, so many steps reach all of it, and what is given for the rest is never asked.
-/
namespace DocTree

open Node (Enters Reaches Within)

namespace Reflection

def walkStep (walk : Reflection → List Reflection) (r : Reflection) : List Reflection :=
  r.children.flatMap fun c => c :: walk c

theorem forest_eq_flatMap (rs : List Reflection) :
    forest rs = rs.flatMap fun c => c :: c.descendants := by
  induction rs with
  | nil => rw [forest, List.flatMap_nil]
  | cons r rs ih => rw [forest, List.flatMap_cons, ih, List.cons_append]

theorem descendants_eq_walkStep (r : Reflection) : r.descendants = walkStep descendants r := by
  cases r
  rw [descendants, forest_eq_flatMap]
  rfl

theorem walkStep_iterate (rest : Reflection → List Reflection) {n m : Nat} {r : Reflection}
    (h : Within n (.reflection r)) (hm : n ≤ 2 * m) : walkStep^[m] rest r = r.descendants := by
  induction m generalizing n r with
  | zero => exact absurd h.pos (by omega)
  | succ m ih =>
    rw [Function.iterate_succ_apply', descendants_eq_walkStep, walkStep, walkStep]
    refine List.flatMap_congr fun c hc => ?_
    rw [ih (h.below (Enters.child hc).reaches) (by omega)]

end Reflection

section Texts

variable (text : TypeExpr → String)

def declaredBy : Option TypeExpr → String
  | none => "any"
  | some t => text t

def typeParameterBy (r : Reflection) : String :=
  match r.type with
  | some t => r.name ++ " extends " ++ text t
  | none => r.name

def parameterBy (r : Reflection) : String :=
  (if r.isRest then "..." else "") ++ r.name ++ (if r.isOptional then "?" else "") ++ ": " ++
    declaredBy text r.type

def callBy (link : String) (r : Reflection) : String :=
  let params := r.typeParameters.map (typeParameterBy text)
  (if params.isEmpty then "" else "<" ++ ", ".intercalate params ++ ">") ++
    "(" ++ ", ".intercalate (r.parameters.map (parameterBy text)) ++ ")" ++ link ++
      declaredBy text r.type

def memberBy (r : Reflection) : String :=
  match r.kind, r.signatures with
  | .method, s :: _ => memberName r.name ++ callBy text ": " s
  | _, _ => memberName r.name ++ (if r.isOptional then "?" else "") ++ ": " ++
      declaredBy text r.type

def inlineBy (r : Reflection) : String :=
  match r.children, r.signatures with
  | [], [] => "\x7b\x7d"
  | [], s :: _ => callBy text " => " s
  | c :: cs, _ => "\x7b " ++ "; ".intercalate ((c :: cs).map (memberBy text)) ++ " \x7d"

def textStep : TypeExpr → String
  | .intrinsic name | .parameter name | .unknown name => name
  | .reference name arguments =>
      match arguments.map text with
      | [] => name
      | texts => name ++ "<" ++ ", ".intercalate texts ++ ">"
  | .array element => element.asOperand (text element) ++ "[]"
  | .union members => " | ".intercalate (members.map text)
  | .intersection members => " & ".intercalate (members.map fun t => t.asOperand (text t))
  | .tuple elements => "[" ++ ", ".intercalate (elements.map text) ++ "]"
  | .stringLiteral value => inQuotes value
  | .operator name target => name ++ " " ++ target.asOperand (text target)
  | .inline declaration => inlineBy text declaration
  | .other => "unknown"

end Texts

theorem typeTexts_eq_map (ts : List TypeExpr) : typeTexts ts = ts.map TypeExpr.text := by
  induction ts with
  | nil => rfl
  | cons t ts ih => rw [typeTexts, ih, List.map_cons]

theorem operandTexts_eq_map (ts : List TypeExpr) :
    operandTexts ts = ts.map fun t => t.asOperand t.text := by
  induction ts with
  | nil => rfl
  | cons t ts ih => rw [operandTexts, ih, List.map_cons]

theorem declaredText_eq (o : Option TypeExpr) : declaredText o = declaredBy TypeExpr.text o := by
  cases o <;> rfl

theorem typeParameterTexts_eq_map (rs : List Reflection) :
    typeParameterTexts rs = rs.map (typeParameterBy TypeExpr.text) := by
  induction rs with
  | nil => rfl
  | cons r rs ih =>
    rw [List.map_cons, ← ih]
    cases r with
    | mk name kind flags comment type => cases type <;> rfl

theorem parameterTexts_eq_map (rs : List Reflection) :
    parameterTexts rs = rs.map (parameterBy TypeExpr.text) := by
  induction rs with
  | nil => rfl
  | cons r rs ih =>
    rw [List.map_cons, ← ih, parameterBy, ← declaredText_eq]
    cases r
    rfl

theorem Reflection.callText_eq (link : String) (r : Reflection) :
    r.callText link = callBy TypeExpr.text link r := by
  cases r
  rw [callText, callBy, ← typeParameterTexts_eq_map, ← parameterTexts_eq_map, ← declaredText_eq]

theorem Reflection.memberText_eq (r : Reflection) : r.memberText = memberBy TypeExpr.text r := by
  cases r with
  | mk name kind flags comment type defaultValue sources signatures =>
    rw [memberBy, ← declaredText_eq]
    dsimp only
    split
    · rw [← callText_eq]
      rfl
    · rename_i other
      rw [memberText]
      · rfl
      · exact other

theorem memberTexts_eq_map (rs : List Reflection) :
    memberTexts rs = rs.map (memberBy TypeExpr.text) := by
  induction rs with
  | nil => rfl
  | cons r rs ih => rw [memberTexts, ih, r.memberText_eq, List.map_cons]

theorem Reflection.inlineText_eq (r : Reflection) : r.inlineText = inlineBy TypeExpr.text r := by
  cases r with
  | mk name kind flags comment type defaultValue sources signatures parameters children =>
    cases children with
    | nil =>
      cases signatures with
      | nil => rfl
      | cons s others => exact s.callText_eq " => "
    | cons c cs =>
      have members := memberTexts_eq_map (c :: cs)
      exact congrArg (fun texts => "\x7b " ++ "; ".intercalate texts ++ " \x7d") members

theorem TypeExpr.text_eq_textStep (t : TypeExpr) : t.text = textStep TypeExpr.text t := by
  cases t with
  | reference =>
    rw [text, typeTexts_eq_map]
    rfl
  | union | tuple => rw [text, textStep, typeTexts_eq_map]
  | intersection => rw [text, textStep, operandTexts_eq_map]
  | inline d => rw [text, textStep, d.inlineText_eq]
  | _ => rw [text, textStep]

/-- Two ways to write types that agree on all types below a node. -/
def AgreeBelow (f g : TypeExpr → String) (a : Node) : Prop :=
  ∀ k t, 0 < k → Reaches a k (.type t) → f t = g t

section Agreement

variable {f g : TypeExpr → String} {a b : Node} {k : Nat}

theorem AgreeBelow.below (h : AgreeBelow f g a) (path : Reaches a k b) : AgreeBelow f g b :=
  fun m t hm behind => h (k + m) t (Nat.add_pos_right k hm) (path.trans behind)

theorem AgreeBelow.step (h : AgreeBelow f g a) (step : Enters a k b) : AgreeBelow f g b :=
  h.below step.reaches

theorem AgreeBelow.eq {t : TypeExpr} (h : AgreeBelow f g a) (step : Enters a k (.type t)) :
    f t = g t :=
  h k t step.pos step.reaches

variable {r : Reflection} (h : AgreeBelow f g (.reflection r))

include h

theorem declaredBy_congr : declaredBy f r.type = declaredBy g r.type := by
  cases hr : r.type with
  | none => rfl
  | some t => exact h.eq (.declared hr)

theorem typeParameterBy_congr : typeParameterBy f r = typeParameterBy g r := by
  rw [typeParameterBy, typeParameterBy]
  split
  · rename_i t hr
    rw [h.eq (.declared hr)]
  · rfl

theorem parameterBy_congr : parameterBy f r = parameterBy g r := by
  rw [parameterBy, parameterBy, declaredBy_congr h]

theorem callBy_congr (link : String) : callBy f link r = callBy g link r := by
  have typeParameters : r.typeParameters.map (typeParameterBy f) =
      r.typeParameters.map (typeParameterBy g) :=
    List.map_congr_left fun p hp => typeParameterBy_congr (h.step (.typeParameter hp))
  have parameters : r.parameters.map (parameterBy f) = r.parameters.map (parameterBy g) :=
    List.map_congr_left fun p hp => parameterBy_congr (h.step (.parameter hp))
  rw [callBy, callBy, typeParameters, parameters, declaredBy_congr h]

theorem memberBy_congr : memberBy f r = memberBy g r := by
  rw [memberBy, memberBy, declaredBy_congr h]
  split
  · rename_i s others method first
    have signature : Enters (.reflection r) 2 (.reflection s) := .signature (by rw [first]; simp)
    rw [callBy_congr (h.step signature)]
  · rfl

theorem inlineBy_congr : inlineBy f r = inlineBy g r := by
  rw [inlineBy, inlineBy]
  split
  · rfl
  · rename_i s others none first
    have signature : Enters (.reflection r) 2 (.reflection s) := .signature (by rw [first]; simp)
    rw [callBy_congr (h.step signature)]
  · rename_i c cs some
    have members : (c :: cs).map (memberBy f) = (c :: cs).map (memberBy g) :=
      List.map_congr_left fun m hm => memberBy_congr (h.step (.child (some ▸ hm)))
    rw [members]

end Agreement

theorem textStep_congr {f g : TypeExpr → String} {t : TypeExpr} (h : AgreeBelow f g (.type t)) :
    textStep f t = textStep g t := by
  cases t with
  | reference name ts =>
    have arguments : ts.map f = ts.map g := List.map_congr_left fun u hu => h.eq (.argument hu)
    rw [textStep, textStep, arguments]
  | array t => rw [textStep, textStep, h.eq .element]
  | union ts =>
    have alternatives : ts.map f = ts.map g :=
      List.map_congr_left fun u hu => h.eq (.alternative hu)
    rw [textStep, textStep, alternatives]
  | intersection ts =>
    have constituents : (ts.map fun u => u.asOperand (f u)) = ts.map fun u => u.asOperand (g u) :=
      List.map_congr_left fun u hu => by rw [h.eq (.constituent hu)]
    rw [textStep, textStep, constituents]
  | tuple ts =>
    have components : ts.map f = ts.map g := List.map_congr_left fun u hu => h.eq (.component hu)
    rw [textStep, textStep, components]
  | operator name t => rw [textStep, textStep, h.eq .target]
  | inline d => rw [textStep, textStep, inlineBy_congr (h.step .declaration)]
  | _ => rw [textStep, textStep]

section Iteration

variable (rest : TypeExpr → String) {n m : Nat}

theorem textStep_iterate {t : TypeExpr} (h : Within n (.type t)) (hm : n ≤ m) :
    textStep^[m] rest t = t.text := by
  induction m generalizing n t with
  | zero => exact absurd h.pos (by omega)
  | succ m ih =>
    rw [Function.iterate_succ_apply', t.text_eq_textStep]
    exact textStep_congr fun k u hk path => ih (h.below path) (by omega)

theorem agreeBelow_iterate {r : Reflection} (h : Within n (.reflection r)) (hm : n ≤ m + 1) :
    AgreeBelow (textStep^[m] rest) TypeExpr.text (.reflection r) :=
  fun _ _ hk path => textStep_iterate rest (h.below path) (by omega)

end Iteration

end DocTree
