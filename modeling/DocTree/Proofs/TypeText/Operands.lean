import DocTree.Proofs.Reflection.Unfolding
import DocTree.Proofs.TypeText.Brackets

/-!
# Operands hold together

Where all names in a type are plain words, its text is balanced. A type that stands next to an
operator shows no bar, no ampersand and no arrow outside of brackets: a union, an intersection and
a function literal are put in parentheses there, and what else they are in has brackets of its own.
-/
namespace DocTree

open Node (Enters Reaches)

namespace Node

theorem Enters.sizeOf_lt {a b : Node} {k : Nat} (h : Enters a k b) : sizeOf b < sizeOf a := by
  cases h with
  | @signature r c hc | @parameter r c hc | @child r c hc | @typeParameter r c hc =>
    have := List.sizeOf_lt_of_mem hc
    cases r
    simp only [reflection.sizeOf_spec, Reflection.mk.sizeOf_spec] at *
    omega
  | @declared r t ht =>
    cases r
    obtain rfl := ht
    simp only [reflection.sizeOf_spec, type.sizeOf_spec, Reflection.mk.sizeOf_spec,
      Option.some.sizeOf_spec]
    omega
  | argument hu | alternative hu | constituent hu | component hu =>
    have := List.sizeOf_lt_of_mem hu
    simp only [type.sizeOf_spec, TypeExpr.reference.sizeOf_spec, TypeExpr.union.sizeOf_spec,
      TypeExpr.intersection.sizeOf_spec, TypeExpr.tuple.sizeOf_spec]
    omega
  | element | target | declaration =>
    simp only [type.sizeOf_spec, reflection.sizeOf_spec, TypeExpr.array.sizeOf_spec,
      TypeExpr.operator.sizeOf_spec, TypeExpr.inline.sizeOf_spec]
    omega

theorem Enters.first {r s : Reflection} {others : List Reflection}
    (h : r.signatures = s :: others) : Enters (reflection r) 2 (reflection s) :=
  .signature (h ▸ List.mem_cons_self)

theorem induction {P : Node → Prop} (step : ∀ a, (∀ k b, Enters a k b → P b) → P a) (a : Node) :
    P a := by
  induction hsize : sizeOf a using Nat.strongRecOn generalizing a with
  | _ n ih =>
    subst hsize
    exact step a fun k b h => ih (sizeOf b) h.sizeOf_lt b rfl

def words : Node → List String
  | reflection r => [r.name]
  | type (.intrinsic w) | type (.reference w _) | type (.stringLiteral w) | type (.parameter w)
  | type (.operator w _) | type (.unknown w) => [w]
  | type _ => []

end Node

def isWordChar (c : Char) : Bool := c.isAlphanum || c == '_'

def IsWord (s : String) : Prop := ∀ c ∈ s.toList, isWordChar c = true

instance (s : String) : Decidable (IsWord s) :=
  List.decidableBAll (isWordChar · = true) s.toList

/-- All words of a node and of the nodes below it are of letters, digits and underscores. -/
def Node.Worded (a : Node) : Prop := ∀ k b, Reaches a k b → ∀ w ∈ b.words, IsWord w

theorem Node.Worded.here {a : Node} (h : a.Worded) : ∀ w ∈ a.words, IsWord w := h 0 a .here

theorem Node.Worded.below {a b : Node} {k : Nat} (h : a.Worded) (path : Reaches a k b) :
    b.Worded :=
  fun m c behind => h (k + m) c (path.trans behind)

theorem Node.Worded.of_below {a : Node} (here : ∀ w ∈ a.words, IsWord w)
    (below : ∀ k b, Enters a k b → b.Worded) : a.Worded := by
  intro k b path
  suffices b = a ∨ b.Worded by
    rcases this with rfl | worded
    · exact here
    · exact worded.here
  induction path with
  | here => exact .inl rfl
  | step _ last ih =>
    rcases ih with rfl | worded
    · exact .inr (below _ _ last)
    · exact .inr (worded.below last.reaches)

def Quiet (c : Char) : Prop := c ≠ '|' ∧ c ≠ '&' ∧ c ≠ '='

instance (c : Char) : Decidable (Quiet c) := inferInstanceAs (Decidable (_ ∧ _))

theorem plain_of_word {c : Char} (h : isWordChar c = true) : IsPlain c ∧ Quiet c := by
  have ne {d : Char} (hd : isWordChar d = false) : c ≠ d := by
    rintro rfl
    exact absurd (h.symm.trans hd) (by decide)
  have no_bracket (side : Bracket → Char) (hside : ∀ b, isWordChar (side b) = false) :
      Bracket.all.find? (fun b => side b == c) = none := by
    refine List.find?_eq_none.2 fun b _ => ?_
    simpa using Ne.symm (ne (hside b))
  refine ⟨⟨no_bracket Bracket.left ?_, no_bracket Bracket.right ?_, ne (by decide)⟩, ne (by decide),
    ne (by decide), ne (by decide)⟩
  all_goals
    intro b
    cases b <;> decide

abbrev Balanced (s : String) : Prop := Exposes (fun _ => True) s

abbrev Sheltered (s : String) : Prop := Exposes Quiet s

theorem Sheltered.balanced {s : String} (h : Sheltered s) : Balanced s := h.mono fun _ _ => trivial

theorem IsWord.sheltered {s : String} (h : IsWord s) : Sheltered s :=
  .plain fun c hc => plain_of_word (h c hc)

theorem IsWord.inQuotes_sheltered {s : String} (h : IsWord s) : Sheltered (inQuotes s) := by
  have unchanged : (s.toList.flatMap fun c => if c = '"' then ['\\', '"'] else [c]) = s.toList := by
    refine (List.flatMap_congr fun c hc => if_neg ?_).trans (List.flatMap_singleton' _)
    rintro rfl
    exact absurd (h _ hc) (by decide)
  have quote : Sheltered "\"" := .plain (by decide)
  rw [inQuotes, unchanged, String.ofList_toList]
  exact (quote.append h.sheltered).append quote

theorem IsWord.memberName_sheltered {s : String} (h : IsWord s) : Sheltered (memberName s) := by
  unfold memberName
  split
  · exact h.sheltered
  · exact h.inQuotes_sheltered

theorem TypeExpr.asOperand_sheltered {t : TypeExpr} {s : String} (balanced : Balanced s)
    (h : t.isLoose = false → Sheltered s) : Sheltered (t.asOperand s) := by
  unfold asOperand
  split
  · exact balanced.bracketed .round rfl rfl
  · rename_i tight
    exact h (eq_false_of_ne_true tight)

structure Reflection.TextsBalanced (r : Reflection) : Prop where
  literal : Balanced r.inlineText
  tight : r.isFunctionLiteral = false → Sheltered r.inlineText
  call : ∀ link, Balanced link → Balanced (r.callText link)
  member : Balanced r.memberText
  parameter : Balanced (parameterBy TypeExpr.text r)
  typeParameter : Balanced (typeParameterBy TypeExpr.text r)

structure TypeExpr.TextBalanced (t : TypeExpr) : Prop where
  balanced : Balanced t.text
  tight : t.isLoose = false → Sheltered t.text

def Node.TextsBalanced : Node → Prop
  | reflection r => r.TextsBalanced
  | type t => t.TextBalanced

theorem TypeExpr.TextBalanced.operand {t : TypeExpr} (h : t.TextBalanced) :
    Sheltered (t.asOperand t.text) :=
  asOperand_sheltered h.balanced h.tight

section Step

variable {r : Reflection} (below : ∀ k b, Enters (.reflection r) k b → b.TextsBalanced)
include below

theorem declaredBy_balanced : Balanced (declaredBy TypeExpr.text r.type) := by
  cases hr : r.type with
  | none => exact .plain (by decide)
  | some t => exact (show t.TextBalanced from below _ _ (.declared hr)).balanced

theorem callBy_balanced {link : String} (hlink : Balanced link) :
    Balanced (callBy TypeExpr.text link r) := by
  have comma : Balanced ", " := .plain (by decide)
  have typeParameters : ∀ s ∈ r.typeParameters.map (typeParameterBy TypeExpr.text), Balanced s := by
    intro s hs
    obtain ⟨p, hp, rfl⟩ := List.mem_map.1 hs
    exact (show p.TextsBalanced from below _ _ (.typeParameter hp)).typeParameter
  have parameters : ∀ s ∈ r.parameters.map (parameterBy TypeExpr.text), Balanced s := by
    intro s hs
    obtain ⟨p, hp, rfl⟩ := List.mem_map.1 hs
    exact (show p.TextsBalanced from below _ _ (.parameter hp)).parameter
  unfold callBy
  dsimp only
  generalize r.typeParameters.map (typeParameterBy TypeExpr.text) = bounds at typeParameters ⊢
  generalize r.parameters.map (parameterBy TypeExpr.text) = texts at parameters ⊢
  have front : Balanced (if bounds.isEmpty then "" else "<" ++ ", ".intercalate bounds ++ ">") := by
    split
    · exact .plain (by decide)
    · exact (comma.intercalate typeParameters).bracketed .angle rfl rfl
  have list : Balanced ("(" ++ ", ".intercalate texts ++ ")") :=
    (comma.intercalate parameters).bracketed .round rfl rfl
  have whole := ((front.append list).append hlink).append (declaredBy_balanced below)
  simpa only [String.append_assoc] using whole

theorem inlineBy_balanced : Balanced (inlineBy TypeExpr.text r) ∧
    (r.isFunctionLiteral = false → Sheltered (inlineBy TypeExpr.text r)) := by
  have both {s : String} (h : Sheltered s) :
      Balanced s ∧ (r.isFunctionLiteral = false → Sheltered s) := ⟨h.balanced, fun _ => h⟩
  have space : Balanced " " := .plain (by decide)
  unfold inlineBy
  split
  · have nothing : Balanced "" := .plain (by decide)
    exact both (nothing.bracketed .curly (l := "\x7b") (r := "\x7d") rfl rfl)
  · rename_i s others none first
    have signature : s.TextsBalanced := below _ _ (.first first)
    have arrow : Balanced " => " := (space.append (.arrow trivial trivial)).append space
    rw [← s.callText_eq]
    refine ⟨signature.call " => " arrow, fun h => ?_⟩
    simp [Reflection.isFunctionLiteral, none, first] at h
  · rename_i c cs some
    have members : ∀ s ∈ (c :: cs).map (memberBy TypeExpr.text), Balanced s := by
      intro s hs
      obtain ⟨m, hm, rfl⟩ := List.mem_map.1 hs
      rw [← m.memberText_eq]
      exact (show m.TextsBalanced from below _ _ (.child (some ▸ hm))).member
    have semicolon : Balanced "; " := .plain (by decide)
    have inside := (space.append (semicolon.intercalate members)).append space
    have whole := inside.bracketed (P := Quiet) .curly (l := "\x7b") (r := "\x7d") rfl rfl
    rw [show "\x7b " = "\x7b" ++ " " from rfl, show " \x7d" = " " ++ "\x7d" from rfl]
    exact both (by simpa only [String.append_assoc] using whole)

variable (word : IsWord r.name)
include word

theorem parameterBy_balanced : Balanced (parameterBy TypeExpr.text r) := by
  have dots : Balanced (if r.isRest then "..." else "") := by
    split <;> exact .plain (by decide)
  have mark : Balanced (if r.isOptional then "?" else "") := by
    split <;> exact .plain (by decide)
  have colon : Balanced ": " := .plain (by decide)
  exact (((dots.append word.sheltered.balanced).append mark).append colon).append
    (declaredBy_balanced below)

theorem typeParameterBy_balanced : Balanced (typeParameterBy TypeExpr.text r) := by
  unfold typeParameterBy
  split
  · rename_i t hr
    have bound : t.TextBalanced := below _ _ (.declared hr)
    have link : Balanced " extends " := .plain (by decide)
    exact (word.sheltered.balanced.append link).append bound.balanced
  · exact word.sheltered.balanced

theorem memberBy_balanced : Balanced (memberBy TypeExpr.text r) := by
  have name := word.memberName_sheltered.balanced
  have colon : Balanced ": " := .plain (by decide)
  unfold memberBy
  split
  · rename_i s others _ first
    have signature : s.TextsBalanced := below _ _ (.first first)
    rw [← s.callText_eq]
    exact name.append (signature.call ": " colon)
  · have mark : Balanced (if r.isOptional then "?" else "") := by
      split <;> exact .plain (by decide)
    exact ((name.append mark).append colon).append (declaredBy_balanced below)

end Step

theorem Reflection.textsBalanced {r : Reflection} (word : IsWord r.name)
    (below : ∀ k b, Enters (.reflection r) k b → b.TextsBalanced) : r.TextsBalanced where
  literal := by
    rw [r.inlineText_eq]
    exact (inlineBy_balanced below).1
  tight := by
    rw [r.inlineText_eq]
    exact (inlineBy_balanced below).2
  call link hlink := by
    rw [r.callText_eq]
    exact callBy_balanced below hlink
  member := by
    rw [r.memberText_eq]
    exact memberBy_balanced below word
  parameter := parameterBy_balanced below word
  typeParameter := typeParameterBy_balanced below word

theorem TypeExpr.textBalanced {t : TypeExpr} (words : ∀ w ∈ (Node.type t).words, IsWord w)
    (below : ∀ k b, Enters (.type t) k b → b.TextsBalanced) : t.TextBalanced := by
  have tight {t : TypeExpr} (h : Sheltered t.text) : t.TextBalanced := ⟨h.balanced, fun _ => h⟩
  have texts {ts : List TypeExpr} (h : ∀ u ∈ ts, u.TextBalanced) :
      ∀ s ∈ ts.map TypeExpr.text, Balanced s := by
    intro s hs
    obtain ⟨u, hu, rfl⟩ := List.mem_map.1 hs
    exact (h u hu).balanced
  have comma : Balanced ", " := .plain (by decide)
  cases t with
  | intrinsic name | parameter name | unknown name =>
    exact tight (words name List.mem_cons_self).sheltered
  | stringLiteral value => exact tight (words value List.mem_cons_self).inQuotes_sheltered
  | other => exact tight (.plain (by decide))
  | reference name ts =>
    have arguments := comma.intercalate (texts fun u hu => below _ _ (.argument hu))
    have name := (words name List.mem_cons_self).sheltered
    refine tight ?_
    rw [text_eq_textStep, textStep]
    split
    · exact name
    · rename_i some
      have listed := arguments.bracketed (P := Quiet) .angle (l := "<") (r := ">") rfl rfl
      simpa only [String.append_assoc] using name.append listed
  | array t =>
    have element : t.TextBalanced := below _ _ .element
    have nothing : Sheltered "" := .plain (by decide)
    have brackets : Sheltered "[]" := nothing.bracketed .square (l := "[") (r := "]") rfl rfl
    refine tight ?_
    rw [text]
    exact element.operand.append brackets
  | union ts =>
    have bar : Balanced " | " := .plain (by decide)
    refine ⟨?_, fun tight => by cases tight⟩
    rw [text, typeTexts_eq_map]
    exact bar.intercalate (texts fun u hu => below _ _ (.alternative hu))
  | intersection ts =>
    have ampersand : Balanced " & " := .plain (by decide)
    refine ⟨?_, fun tight => by cases tight⟩
    rw [text, operandTexts_eq_map]
    refine ampersand.intercalate fun s hs => ?_
    obtain ⟨u, hu, rfl⟩ := List.mem_map.1 hs
    exact (show u.TextBalanced from below _ _ (.constituent hu)).operand.balanced
  | tuple ts =>
    have elements := comma.intercalate (texts fun u hu => below _ _ (.component hu))
    refine tight ?_
    rw [text, typeTexts_eq_map]
    exact elements.bracketed .square rfl rfl
  | operator name t =>
    have target : t.TextBalanced := below _ _ .target
    have space : Sheltered " " := .plain (by decide)
    refine tight ?_
    rw [text]
    exact ((words name List.mem_cons_self).sheltered.append space).append target.operand
  | inline d =>
    have literal : d.TextsBalanced := below _ _ .declaration
    constructor
    · rw [text]
      exact literal.literal
    · rw [text]
      exact literal.tight

theorem Node.textsBalanced (a : Node) (h : a.Worded) : a.TextsBalanced := by
  induction a using Node.induction with
  | step a ih =>
    have below (k : Nat) (b : Node) (step : Enters a k b) : b.TextsBalanced :=
      ih k b step (h.below step.reaches)
    cases a with
    | reflection r => exact Reflection.textsBalanced (h.here r.name List.mem_cons_self) below
    | type t => exact TypeExpr.textBalanced h.here below

inductive TypeExpr.IsOperand : TypeExpr → TypeExpr → Prop
  | element {t : TypeExpr} : IsOperand t (.array t)
  | constituent {t : TypeExpr} {ts : List TypeExpr} : t ∈ ts → IsOperand t (.intersection ts)
  | target {name : String} {t : TypeExpr} : IsOperand t (.operator name t)

theorem exists_intercalate_eq (sep : String) (as bs : List String) :
    ∃ before behind, ∀ s, sep.intercalate (as ++ s :: bs) = before ++ s ++ behind := by
  have rest : ∃ behind, ∀ s, sep.intercalate (s :: bs) = s ++ behind := by
    cases bs with
    | nil => exact ⟨"", fun s => by simp⟩
    | cons t bs => exact ⟨sep ++ sep.intercalate (t :: bs), fun s => by simp [String.append_assoc]⟩
  obtain ⟨behind, hbehind⟩ := rest
  induction as with
  | nil => exact ⟨"", behind, fun s => by simp [hbehind]⟩
  | cons a as ih =>
    obtain ⟨before, behind, h⟩ := ih
    refine ⟨a ++ sep ++ before, behind, fun s => ?_⟩
    rw [List.cons_append, String.intercalate_cons_of_ne_nil (by simp), h]
    simp only [String.append_assoc]

namespace TypeExpr

theorem IsOperand.written {v u : TypeExpr} (h : IsOperand v u) :
    ∃ before behind, u.text = before ++ v.asOperand v.text ++ behind := by
  cases h with
  | element => exact ⟨"", "[]", by rw [text, String.empty_append]⟩
  | @constituent v ts hv =>
    obtain ⟨as, bs, rfl⟩ := List.append_of_mem hv
    obtain ⟨before, behind, written⟩ := exists_intercalate_eq " & "
      (as.map fun t => t.asOperand t.text) (bs.map fun t => t.asOperand t.text)
    refine ⟨before, behind, ?_⟩
    rw [text, operandTexts_eq_map, List.map_append, List.map_cons, written]
  | @target name v => exact ⟨name ++ " ", "", by rw [text, String.append_empty]⟩

theorem IsOperand.enters {v u : TypeExpr} (h : IsOperand v u) :
    ∃ k, Enters (.type u) k (.type v) := by
  cases h with
  | element => exact ⟨1, .element⟩
  | constituent hv => exact ⟨2, .constituent hv⟩
  | target => exact ⟨1, .target⟩

/-- The text of a type is balanced, and no operand in it, however deep, shows a bar, an ampersand or
an arrow outside of brackets. -/
theorem operands_sheltered {t : TypeExpr} (h : Node.Worded (.type t)) :
    (∃ shown, outside [] t.text.toList = some shown) ∧
    ∀ k u v, Reaches (.type t) k (.type u) → IsOperand v u →
      ∃ before behind shown, u.text = before ++ v.asOperand v.text ++ behind ∧
        outside [] (v.asOperand v.text).toList = some shown ∧
        ∀ c ∈ shown, c ≠ '|' ∧ c ≠ '&' ∧ c ≠ '=' := by
  constructor
  · have whole : t.TextBalanced := Node.textsBalanced _ h
    obtain ⟨shown, leaves, -⟩ := whole.balanced
    exact ⟨shown, leaves.outside_eq⟩
  · intro k u v path operand
    obtain ⟨before, behind, written⟩ := operand.written
    obtain ⟨m, step⟩ := operand.enters
    have worded : Node.Worded (.type v) := (h.below path).below step.reaches
    obtain ⟨shown, leaves, quiet⟩ := (show v.TextBalanced from Node.textsBalanced _ worded).operand
    exact ⟨before, behind, shown, written, leaves.outside_eq, quiet⟩

theorem operands_sheltered_array :
    Node.Worded (.type (array (union [reference "A" [], reference "B" []]))) ∧
    (array (union [reference "A" [], reference "B" []])).text = "(A | B)[]" ∧
    ∃ shown, outside [] "(A | B)".toList = some shown ∧
      ∀ c ∈ shown, c ≠ '|' ∧ c ≠ '&' ∧ c ≠ '=' := by
  have name {w : String} (hw : IsWord w) : Node.Worded (.type (reference w [])) := by
    refine .of_below (List.forall_mem_singleton.2 hw) fun k b step => ?_
    cases step with
    | argument hu => exact absurd hu List.not_mem_nil
  have worded : Node.Worded (.type (array (union [reference "A" [], reference "B" []]))) := by
    refine .of_below nofun fun k b step => ?_
    cases step
    refine .of_below nofun fun k b step => ?_
    cases step with
    | alternative hu =>
      simp only [List.mem_cons, List.not_mem_nil, or_false] at hu
      rcases hu with rfl | rfl
      · exact name (by decide)
      · exact name (by decide)
  obtain ⟨before, behind, shown, -, shown_eq, quiet⟩ :=
    (operands_sheltered worded).2 0 _ _ .here .element
  exact ⟨worded, rfl, shown, shown_eq, quiet⟩

end TypeExpr

end DocTree
