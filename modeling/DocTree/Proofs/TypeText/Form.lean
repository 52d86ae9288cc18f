import DocTree.TypeText

/-!
# The forms of types

A form is what the text of a type is meant to say. The types that have one are built from
references, arrays, unions, intersections, tuples, operators and function literals. A form
leaves out what the text can not tell: whatever else an inline declaration holds, and
whether a parameter has no type or the type `any`.
-/
namespace DocTree

structure Identifier where
  name : String
  valid : isIdentifier name = true
  deriving DecidableEq

def Identifier.chars (x : Identifier) : List Char := x.name.toList

structure Parameter (α : Type) where
  isRest : Bool
  name : Identifier
  isOptional : Bool
  type : α

mutual

/-- A type as the list of its alternatives, more than one of them in a union only. -/
inductive Form where
  | one (t : Alternative)
  | or (t : Alternative) (others : Form)

inductive Alternative where
  | reference (name : Identifier) (arguments : List Form)
  | array (element : Form)
  | intersection (first second : Form) (others : List Form)
  | tuple (elements : List Form)
  | operator (name : Identifier) (target : Form)
  | function (parameters : List (Parameter Form)) (result : Form)

end

def Form.isLoose : Form → Bool
  | .or _ _ | .one (.intersection _ _ _) | .one (.function _ _) => true
  | .one _ => false

def Form.asOperand (a : Form) (cs : List Char) : List Char :=
  if a.isLoose then '(' :: (cs ++ [')']) else cs

def markChars (isOptional : Bool) : List Char :=
  if isOptional then ['?', ':', ' '] else [':', ' ']

def Parameter.header {α : Type} (p : Parameter α) : List Char :=
  (if p.isRest then ['.', '.', '.'] else []) ++ p.name.chars ++ markChars p.isOptional

mutual

def Form.chars : Form → List Char
  | .one t => t.chars
  | .or t a => t.chars ++ [' ', '|', ' '] ++ a.chars

def Alternative.chars : Alternative → List Char
  | .reference x [] => x.chars
  | .reference x (a :: as) => x.chars ++ '<' :: (a.chars ++ moreChars as ++ ['>'])
  | .array a => a.asOperand a.chars ++ ['[', ']']
  | .intersection a b cs =>
      a.asOperand a.chars ++ [' ', '&', ' '] ++ b.asOperand b.chars ++ moreOperandChars cs
  | .tuple [] => ['[', ']']
  | .tuple (a :: as) => '[' :: (a.chars ++ moreChars as ++ [']'])
  | .operator x a => x.chars ++ ' ' :: a.asOperand a.chars
  | .function [] a => ['(', ')', ' ', '=', '>', ' '] ++ a.chars
  | .function (⟨rest, x, opt, b⟩ :: ps) a =>
      '(' :: ((Parameter.mk rest x opt b).header ++ b.chars ++ moreParameterChars ps ++
        [')', ' ', '=', '>', ' '] ++ a.chars)

def moreChars : List Form → List Char
  | [] => []
  | a :: as => ',' :: ' ' :: (a.chars ++ moreChars as)

def moreOperandChars : List Form → List Char
  | [] => []
  | a :: as => ' ' :: '&' :: ' ' :: (a.asOperand a.chars ++ moreOperandChars as)

def moreParameterChars : List (Parameter Form) → List Char
  | [] => []
  | ⟨rest, x, opt, a⟩ :: ps =>
      ',' :: ' ' :: ((Parameter.mk rest x opt a).header ++ a.chars ++ moreParameterChars ps)

end

def Form.operandChars (a : Form) : List Char := a.asOperand a.chars

def Parameter.chars (p : Parameter Form) : List Char := p.header ++ p.type.chars

def identifier? (s : String) : Option Identifier :=
  if h : isIdentifier s = true then some ⟨s, h⟩ else none

def unionOf : List Form → Option Form
  | [.one t, .one u] => some (.or t (.one u))
  | .one t :: as => (unionOf as).map (.or t)
  | _ => none

def intersectionOf : List Form → Option Form
  | a :: b :: cs => some (.one (.intersection a b cs))
  | _ => none

def Form.any : Form := .one (.reference ⟨"any", by decide⟩ [])

mutual

def TypeExpr.form? : TypeExpr → Option Form
  | .reference name arguments => do
      let x ← identifier? name
      let as ← forms? arguments
      return .one (.reference x as)
  | .array element => do
      let a ← element.form?
      return .one (.array a)
  | .union members => do
      let as ← forms? members
      unionOf as
  | .intersection members => do
      let as ← forms? members
      intersectionOf as
  | .tuple elements => do
      let as ← forms? elements
      return .one (.tuple as)
  | .operator name target => do
      let x ← identifier? name
      let a ← target.form?
      return .one (.operator x a)
  | .inline declaration => declaration.functionForm?
  | .intrinsic _ | .stringLiteral _ | .parameter _ | .unknown _ | .other => none

def forms? : List TypeExpr → Option (List Form)
  | [] => some []
  | t :: ts => do
      let a ← t.form?
      let as ← forms? ts
      return a :: as

def declaredForm? : Option TypeExpr → Option Form
  | none => some Form.any
  | some t => t.form?

def Reflection.functionForm? : Reflection → Option Form
  | ⟨_, _, _, _, _, _, _, [s], _, [], _⟩ => s.callForm?
  | _ => none

def Reflection.callForm? : Reflection → Option Form
  | ⟨_, _, _, _, some t, _, _, _, parameters, _, []⟩ => do
      let ps ← parameterForms? parameters
      let a ← t.form?
      return .one (.function ps a)
  | _ => none

def parameterForms? : List Reflection → Option (List (Parameter Form))
  | [] => some []
  | ⟨name, _, flags, _, type, _, _, _, _, _, _⟩ :: rs => do
      let x ← identifier? name
      let a ← declaredForm? type
      let ps ← parameterForms? rs
      return ⟨(flags.bind Flags.isRest).getD false, x, (flags.bind Flags.isOptional).getD false, a⟩
        :: ps

end

theorem intercalate_map_cons {α : Type} (sep : List Char) (f : α → List Char) (a : α)
    (as : List α) :
    sep.intercalate ((a :: as).map f) = f a ++ as.flatMap fun b => sep ++ f b := by
  induction as generalizing a with
  | nil => simp
  | cons b as ih =>
    rw [List.map_cons, List.map_cons, List.intercalate_cons_cons, ← List.map_cons, ih b,
      List.flatMap_cons]
    simp only [List.append_assoc]

theorem moreChars_eq (as : List Form) :
    moreChars as = as.flatMap fun a => [',', ' '] ++ a.chars := by
  induction as with
  | nil => rfl
  | cons a as ih => simp [moreChars, ih]

theorem moreOperandChars_eq (as : List Form) :
    moreOperandChars as = as.flatMap fun a => [' ', '&', ' '] ++ a.operandChars := by
  induction as with
  | nil => rfl
  | cons a as ih => simp [moreOperandChars, Form.operandChars, ih]

theorem moreParameterChars_eq (ps : List (Parameter Form)) :
    moreParameterChars ps = ps.flatMap fun p => [',', ' '] ++ p.chars := by
  induction ps with
  | nil => rfl
  | cons p ps ih => simp [moreParameterChars, Parameter.chars, ih]

theorem identifier?_eq_some {s : String} {x : Identifier} (h : identifier? s = some x) :
    s = x.name := by
  unfold identifier? at h
  split at h
  · rw [← Option.some.inj h]
  · exact nomatch h

theorem unionOf_chars {as : List Form} {a : Form} (h : unionOf as = some a) :
    [' ', '|', ' '].intercalate (as.map Form.chars) = a.chars := by
  fun_induction unionOf as generalizing a with
  | case1 t u =>
    obtain rfl := Option.some.inj h
    simp [Form.chars]
  | case2 t as _ ih =>
    obtain ⟨b, hb, rfl⟩ := Option.map_eq_some_iff.1 h
    obtain ⟨c, cs, rfl⟩ : ∃ c cs, as = c :: cs := by
      cases as with
      | nil => exact nomatch hb
      | cons c cs => exact ⟨c, cs, rfl⟩
    rw [Form.chars, ← ih hb, List.map_cons, List.map_cons, List.intercalate_cons_cons, Form.chars]
  | case3 => exact nomatch h

theorem unionOf_isLoose {as : List Form} {a : Form} (h : unionOf as = some a) :
    a.isLoose = true := by
  fun_cases unionOf as with
  | case1 =>
    obtain rfl := Option.some.inj h
    rfl
  | case2 t as ne =>
    rw [unionOf.eq_2 _ _ ne] at h
    obtain ⟨b, -, rfl⟩ := Option.map_eq_some_iff.1 h
    rfl
  | case3 => simp_all [unionOf]

theorem intersectionOf_eq_some {as : List Form} {a : Form} (h : intersectionOf as = some a) :
    ∃ b c cs, as = b :: c :: cs ∧ a = .one (.intersection b c cs) := by
  unfold intersectionOf at h
  split at h
  · exact ⟨_, _, _, rfl, (Option.some.inj h).symm⟩
  · exact nomatch h

theorem Reflection.functionForm?_eq_some {r : Reflection} {a : Form}
    (h : r.functionForm? = some a) : ∃ s, r.signatures = [s] ∧ r.children = [] ∧
      s.callForm? = some a := by
  unfold functionForm? at h
  split at h
  · exact ⟨_, rfl, rfl, h⟩
  · exact nomatch h

theorem Reflection.callForm?_eq_some {s : Reflection} {a : Form} (h : s.callForm? = some a) :
    ∃ t ps b, s.type = some t ∧ s.typeParameters = [] ∧ parameterForms? s.parameters = some ps ∧
      t.form? = some b ∧ a = .one (.function ps b) := by
  unfold callForm? at h
  split at h
  · obtain ⟨ps, hps, h⟩ := Option.bind_eq_some_iff.1 h
    obtain ⟨b, hb, h⟩ := Option.bind_eq_some_iff.1 h
    exact ⟨_, ps, b, rfl, rfl, hps, hb, (Option.some.inj h).symm⟩
  · exact nomatch h

theorem TypeExpr.isLoose_of_form? {t : TypeExpr} {a : Form} (h : t.form? = some a) :
    t.isLoose = a.isLoose := by
  cases t with
  | reference =>
    obtain ⟨_, -, h⟩ := Option.bind_eq_some_iff.1 h
    obtain ⟨_, -, h⟩ := Option.bind_eq_some_iff.1 h
    obtain rfl := Option.some.inj h
    rfl
  | array | tuple =>
    obtain ⟨_, -, h⟩ := Option.bind_eq_some_iff.1 h
    obtain rfl := Option.some.inj h
    rfl
  | operator =>
    obtain ⟨_, -, h⟩ := Option.bind_eq_some_iff.1 h
    obtain ⟨_, -, h⟩ := Option.bind_eq_some_iff.1 h
    obtain rfl := Option.some.inj h
    rfl
  | union =>
    obtain ⟨_, -, h⟩ := Option.bind_eq_some_iff.1 h
    exact (unionOf_isLoose h).symm
  | intersection =>
    obtain ⟨_, -, h⟩ := Option.bind_eq_some_iff.1 h
    obtain ⟨_, _, _, -, rfl⟩ := intersectionOf_eq_some h
    rfl
  | inline d =>
    obtain ⟨s, hs, hc, h⟩ := Reflection.functionForm?_eq_some h
    obtain ⟨_, _, _, -, -, -, -, rfl⟩ := Reflection.callForm?_eq_some h
    simp [isLoose, Reflection.isFunctionLiteral, hs, hc, Form.isLoose]
  | _ => exact nomatch h

theorem TypeExpr.asOperand_of_form? {t : TypeExpr} {a : Form} (h : t.form? = some a)
    (s : String) : (t.asOperand s).toList = a.asOperand s.toList := by
  unfold TypeExpr.asOperand Form.asOperand
  rw [t.isLoose_of_form? h]
  split <;> simp

theorem Parameter.toList_text (x : Identifier) (flags : Option Flags) {type : Option TypeExpr}
    {a : Form} (h : (declaredText type).toList = a.chars) :
    ((if (flags.bind Flags.isRest).getD false then "..." else "") ++ x.name ++
      (if (flags.bind Flags.isOptional).getD false then "?" else "") ++ ": " ++
      declaredText type).toList =
      Parameter.chars ⟨(flags.bind Flags.isRest).getD false, x,
        (flags.bind Flags.isOptional).getD false, a⟩ := by
  simp only [String.toList_append, h, Parameter.chars, Parameter.header, Identifier.chars,
    markChars]
  congr 1
  split <;> split <;> simp

mutual

theorem TypeExpr.toList_text : ∀ {t : TypeExpr} {a : Form}, t.form? = some a →
    t.text.toList = a.chars
  | .reference name arguments, a, h => by
      obtain ⟨x, hx, h⟩ := Option.bind_eq_some_iff.1 h
      obtain ⟨as, has, h⟩ := Option.bind_eq_some_iff.1 h
      obtain rfl := Option.some.inj h
      obtain rfl := identifier?_eq_some hx
      have texts := toList_texts has
      rw [TypeExpr.text]
      split
      · rename_i none
        rw [none] at texts
        obtain rfl := List.map_eq_nil_iff.1 texts.symm
        rfl
      · rename_i some
        obtain ⟨b, bs, rfl⟩ : ∃ b bs, as = b :: bs := by
          cases as with
          | nil => exact absurd (List.map_eq_nil_iff.1 texts) some
          | cons b bs => exact ⟨b, bs, rfl⟩
        simp only [String.toList_append, String.toList_intercalate, texts]
        rw [show ", ".toList = [',', ' '] from rfl, intercalate_map_cons, ← moreChars_eq]
        simp [Form.chars, Alternative.chars, Identifier.chars]
  | .array element, a, h => by
      obtain ⟨b, hb, h⟩ := Option.bind_eq_some_iff.1 h
      obtain rfl := Option.some.inj h
      rw [TypeExpr.text, String.toList_append, TypeExpr.asOperand_of_form? hb,
        TypeExpr.toList_text hb]
      rfl
  | .union members, a, h => by
      obtain ⟨as, has, h⟩ := Option.bind_eq_some_iff.1 h
      rw [TypeExpr.text, String.toList_intercalate, toList_texts has]
      exact unionOf_chars h
  | .intersection members, a, h => by
      obtain ⟨as, has, h⟩ := Option.bind_eq_some_iff.1 h
      obtain ⟨b, c, cs, rfl, rfl⟩ := intersectionOf_eq_some h
      rw [TypeExpr.text, String.toList_intercalate, toList_operandTexts has]
      rw [show " & ".toList = [' ', '&', ' '] from rfl, intercalate_map_cons, ← moreOperandChars_eq]
      simp [Form.chars, Alternative.chars, moreOperandChars, Form.operandChars]
  | .tuple elements, a, h => by
      obtain ⟨as, has, h⟩ := Option.bind_eq_some_iff.1 h
      obtain rfl := Option.some.inj h
      rw [TypeExpr.text]
      simp only [String.toList_append, String.toList_intercalate, toList_texts has]
      cases as with
      | nil => rfl
      | cons b bs =>
        rw [show ", ".toList = [',', ' '] from rfl, intercalate_map_cons, ← moreChars_eq]
        simp [Form.chars, Alternative.chars]
  | .operator name target, a, h => by
      obtain ⟨x, hx, h⟩ := Option.bind_eq_some_iff.1 h
      obtain ⟨b, hb, h⟩ := Option.bind_eq_some_iff.1 h
      obtain rfl := Option.some.inj h
      obtain rfl := identifier?_eq_some hx
      rw [TypeExpr.text, String.toList_append, TypeExpr.asOperand_of_form? hb,
        TypeExpr.toList_text hb]
      simp [Form.chars, Alternative.chars, Identifier.chars]
  | .inline declaration, a, h => by
      rw [TypeExpr.text]
      exact Reflection.toList_inlineText h
  | .intrinsic _, _, h | .stringLiteral _, _, h | .parameter _, _, h | .unknown _, _, h
  | .other, _, h => nomatch h

theorem toList_declaredText : ∀ {type : Option TypeExpr} {a : Form},
    declaredForm? type = some a → (declaredText type).toList = a.chars
  | none, a, h => by
      obtain rfl := Option.some.inj h
      rw [declaredText]
      rfl
  | some t, a, h => by
      rw [declaredText]
      exact TypeExpr.toList_text h

theorem toList_texts : ∀ {ts : List TypeExpr} {as : List Form}, forms? ts = some as →
    (typeTexts ts).map String.toList = as.map Form.chars
  | [], as, h => by
      obtain rfl := Option.some.inj h
      rfl
  | t :: ts, as, h => by
      obtain ⟨b, hb, h⟩ := Option.bind_eq_some_iff.1 h
      obtain ⟨bs, hbs, h⟩ := Option.bind_eq_some_iff.1 h
      obtain rfl := Option.some.inj h
      rw [typeTexts, List.map_cons, List.map_cons, TypeExpr.toList_text hb, toList_texts hbs]

theorem toList_operandTexts : ∀ {ts : List TypeExpr} {as : List Form}, forms? ts = some as →
    (operandTexts ts).map String.toList = as.map Form.operandChars
  | [], as, h => by
      obtain rfl := Option.some.inj h
      rfl
  | t :: ts, as, h => by
      obtain ⟨b, hb, h⟩ := Option.bind_eq_some_iff.1 h
      obtain ⟨bs, hbs, h⟩ := Option.bind_eq_some_iff.1 h
      obtain rfl := Option.some.inj h
      rw [operandTexts, List.map_cons, List.map_cons, toList_operandTexts hbs,
        TypeExpr.asOperand_of_form? hb, TypeExpr.toList_text hb]
      rfl

theorem Reflection.toList_inlineText : ∀ {d : Reflection} {a : Form},
    d.functionForm? = some a → d.inlineText.toList = a.chars
  | ⟨_, _, _, _, _, _, _, [s], _, [], _⟩, a, h => by
      rw [Reflection.inlineText]
      exact Reflection.toList_callText h
  | ⟨_, _, _, _, _, _, _, [], _, _, _⟩, a, h => nomatch h
  | ⟨_, _, _, _, _, _, _, _ :: _ :: _, _, _, _⟩, a, h => nomatch h
  | ⟨_, _, _, _, _, _, _, [_], _, _ :: _, _⟩, a, h => nomatch h

theorem Reflection.toList_callText : ∀ {s : Reflection} {a : Form},
    s.callForm? = some a → (s.callText " => ").toList = a.chars
  | ⟨_, _, _, _, some t, _, _, _, parameters, _, []⟩, a, h => by
      obtain ⟨ps, hps, h⟩ := Option.bind_eq_some_iff.1 h
      obtain ⟨b, hb, h⟩ := Option.bind_eq_some_iff.1 h
      obtain rfl := Option.some.inj h
      have texts := toList_parameterTexts hps
      rw [Reflection.callText]
      simp only [typeParameterTexts, List.isEmpty_nil, if_true, String.toList_append,
        String.toList_intercalate, texts, declaredText, TypeExpr.toList_text hb]
      cases ps with
      | nil => rfl
      | cons p ps =>
        rw [show ", ".toList = [',', ' '] from rfl, intercalate_map_cons, ← moreParameterChars_eq]
        simp [Form.chars, Alternative.chars, Parameter.chars]
  | ⟨_, _, _, _, none, _, _, _, _, _, _⟩, a, h => nomatch h
  | ⟨_, _, _, _, some _, _, _, _, _, _, _ :: _⟩, a, h => nomatch h

theorem toList_parameterTexts : ∀ {rs : List Reflection} {ps : List (Parameter Form)},
    parameterForms? rs = some ps → (parameterTexts rs).map String.toList = ps.map Parameter.chars
  | [], ps, h => by
      obtain rfl := Option.some.inj h
      rfl
  | ⟨name, _, flags, _, type, _, _, _, _, _, _⟩ :: rs, ps, h => by
      obtain ⟨x, hx, h⟩ := Option.bind_eq_some_iff.1 h
      obtain ⟨b, hb, h⟩ := Option.bind_eq_some_iff.1 h
      obtain ⟨qs, hqs, h⟩ := Option.bind_eq_some_iff.1 h
      obtain rfl := Option.some.inj h
      obtain rfl := identifier?_eq_some hx
      rw [parameterTexts, List.map_cons, List.map_cons, toList_parameterTexts hqs,
        Parameter.toList_text x flags (toList_declaredText hb)]

end

end DocTree
