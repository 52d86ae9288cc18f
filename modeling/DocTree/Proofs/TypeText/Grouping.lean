import DocTree.Proofs.TypeText.Form

/-!
# How the text of a type is grouped

Two constructs reach further in the text than in the form. An operator applies to all that
follows it as one operand, so an array of an operator's type reads as the operator on an
array. A function literal returns all that follows its arrow, so the alternatives behind
it in a union read as alternatives of what it returns. A form is grouped when neither is
the case in it; regrouping gives the grouped form with the same text.
-/
namespace DocTree

def Form.isOperator : Form → Bool
  | .one (.operator _ _) => true
  | _ => false

def Alternative.isFunction : Alternative → Bool
  | .function _ _ => true
  | _ => false

mutual

/-- No array has the type of an operator as its element, and no function literal stands in a union
before its last alternative. -/
def Form.Grouped : Form → Prop
  | .one t => t.Grouped
  | .or t a => t.isFunction = false ∧ t.Grouped ∧ a.Grouped

def Alternative.Grouped : Alternative → Prop
  | .reference _ as => allGrouped as
  | .array a => a.isOperator = false ∧ a.Grouped
  | .intersection a b cs => a.Grouped ∧ b.Grouped ∧ allGrouped cs
  | .tuple as => allGrouped as
  | .operator _ a => a.Grouped
  | .function ps a => parametersGrouped ps ∧ a.Grouped

def allGrouped : List Form → Prop
  | [] => True
  | a :: as => a.Grouped ∧ allGrouped as

def parametersGrouped : List (Parameter Form) → Prop
  | [] => True
  | ⟨_, _, _, a⟩ :: ps => a.Grouped ∧ parametersGrouped ps

end

mutual

def Form.arrayOf : Form → Alternative
  | .one t => t.arrayOf
  | .or t a => .array (.or t a)

def Alternative.arrayOf : Alternative → Alternative
  | .operator x a => .operator x (.one a.arrayOf)
  | t => .array (.one t)

end

def Alternative.before (t : Alternative) : Option Form → Form
  | none => .one t
  | some a => .or t a

mutual

/-- The grouped form that the text of a form is read as when it is followed by further
alternatives, if any. -/
def Form.regroup : Option Form → Form → Form
  | rest, .one t => t.regroup rest
  | rest, .or t a => t.regroup (some (a.regroup rest))

def Alternative.regroup : Option Form → Alternative → Form
  | rest, .reference x as => (Alternative.reference x (regroupAll as)).before rest
  | rest, .array a => (a.regroup none).arrayOf.before rest
  | rest, .intersection a b cs =>
      (Alternative.intersection (a.regroup none) (b.regroup none) (regroupAll cs)).before rest
  | rest, .tuple as => (Alternative.tuple (regroupAll as)).before rest
  | rest, .operator x a => (Alternative.operator x (a.regroup none)).before rest
  | rest, .function ps a => .one (.function (regroupParameters ps) (a.regroup rest))

def regroupAll : List Form → List Form
  | [] => []
  | a :: as => a.regroup none :: regroupAll as

def regroupParameters : List (Parameter Form) → List (Parameter Form)
  | [] => []
  | ⟨rest, x, opt, a⟩ :: ps => ⟨rest, x, opt, a.regroup none⟩ :: regroupParameters ps

end

mutual

theorem Form.arrayOf_grouped : ∀ {a : Form}, a.Grouped → a.arrayOf.Grouped
  | .one _, h => Alternative.arrayOf_grouped h
  | .or _ _, h => ⟨rfl, h⟩

theorem Alternative.arrayOf_grouped : ∀ {t : Alternative}, t.Grouped → t.arrayOf.Grouped
  | .operator _ _, h => Form.arrayOf_grouped h
  | .reference _ _, h | .array _, h | .intersection _ _ _, h | .tuple _, h | .function _ _, h =>
      ⟨rfl, h⟩

end

theorem Form.arrayOf_eq (a : Form) :
    (∃ b, a.arrayOf = .array b) ∨ ∃ x b, a.arrayOf = .operator x b := by
  cases a with
  | or t a => exact .inl ⟨_, rfl⟩
  | one t =>
    cases t with
    | operator x a => exact .inr ⟨x, _, rfl⟩
    | _ => exact .inl ⟨_, rfl⟩

theorem Form.isFunction_arrayOf (a : Form) : a.arrayOf.isFunction = false := by
  obtain ⟨b, h⟩ | ⟨x, b, h⟩ := a.arrayOf_eq <;> rw [h] <;> rfl

theorem Form.isLoose_arrayOf (a : Form) : (Form.one a.arrayOf).isLoose = false := by
  obtain ⟨b, h⟩ | ⟨x, b, h⟩ := a.arrayOf_eq <;> rw [h] <;> rfl

theorem Form.operandChars_tight {a : Form} (h : a.isLoose = false) : a.operandChars = a.chars := by
  rw [operandChars, asOperand, h]
  rfl

mutual

theorem Form.chars_arrayOf : ∀ a : Form, a.arrayOf.chars = a.operandChars ++ ['[', ']']
  | .one t => t.chars_arrayOf
  | .or _ _ => rfl

theorem Alternative.chars_arrayOf : ∀ t : Alternative,
    t.arrayOf.chars = (Form.one t).operandChars ++ ['[', ']']
  | .operator x a =>
      calc x.chars ++ ' ' :: (Form.one a.arrayOf).operandChars
          = x.chars ++ ' ' :: (a.operandChars ++ ['[', ']']) := by
            rw [Form.operandChars_tight a.isLoose_arrayOf, Form.chars, a.chars_arrayOf]
        _ = (x.chars ++ ' ' :: a.operandChars) ++ ['[', ']'] := by simp
  | .reference _ _ | .array _ | .intersection _ _ _ | .tuple _ | .function _ _ => rfl

end

theorem Form.arrayOf_eq_array {a : Form} (h : a.isOperator = false) : a.arrayOf = .array a := by
  cases a with
  | or => rfl
  | one t =>
    cases t with
    | operator => exact nomatch h
    | _ => rfl

theorem Alternative.before_grouped {t : Alternative} {rest : Option Form} (ht : t.Grouped)
    (hf : t.isFunction = false) (hrest : ∀ a ∈ rest, a.Grouped) : (t.before rest).Grouped := by
  cases rest with
  | none => exact ht
  | some a => exact ⟨hf, ht, hrest a rfl⟩

mutual

theorem Form.regroup_grouped : ∀ (a : Form) {rest : Option Form}, (∀ b ∈ rest, b.Grouped) →
    (a.regroup rest).Grouped
  | .one t, _, h => t.regroup_grouped h
  | .or t a, rest, h => by
      -- the alternatives behind `t` are its rest, and are grouped first
      refine t.regroup_grouped fun b hb => ?_
      obtain rfl := Option.some.inj hb
      exact a.regroup_grouped h

theorem Alternative.regroup_grouped : ∀ (t : Alternative) {rest : Option Form},
    (∀ b ∈ rest, b.Grouped) → (t.regroup rest).Grouped
  | .reference _ as, _, h => Alternative.before_grouped (regroupAll_grouped as) rfl h
  | .array a, _, h =>
      Alternative.before_grouped (Form.arrayOf_grouped (a.regroup_grouped nofun))
        (Form.isFunction_arrayOf _) h
  | .intersection a b cs, _, h =>
      Alternative.before_grouped
        ⟨a.regroup_grouped nofun, b.regroup_grouped nofun, regroupAll_grouped cs⟩ rfl h
  | .tuple as, _, h => Alternative.before_grouped (regroupAll_grouped as) rfl h
  | .operator _ a, _, h => Alternative.before_grouped (a.regroup_grouped nofun) rfl h
  | .function ps a, _, h => ⟨regroupParameters_grouped ps, a.regroup_grouped h⟩

theorem regroupAll_grouped : ∀ as : List Form, allGrouped (regroupAll as)
  | [] => trivial
  | a :: as => ⟨a.regroup_grouped nofun, regroupAll_grouped as⟩

theorem regroupParameters_grouped : ∀ ps : List (Parameter Form),
    parametersGrouped (regroupParameters ps)
  | [] => trivial
  | ⟨_, _, _, a⟩ :: ps => ⟨a.regroup_grouped nofun, regroupParameters_grouped ps⟩

end

def restChars : Option Form → List Char
  | none => []
  | some a => [' ', '|', ' '] ++ a.chars

theorem Alternative.chars_before (t : Alternative) (rest : Option Form) :
    (t.before rest).chars = t.chars ++ restChars rest := by
  cases rest with
  | none => exact (List.append_nil _).symm
  | some a => exact List.append_assoc _ _ _

theorem Alternative.isLoose_regroup_some (t : Alternative) (a : Form) :
    (t.regroup (some a)).isLoose = true := by
  cases t <;> rfl

theorem Form.isLoose_regroup (a : Form) : (a.regroup none).isLoose = a.isLoose := by
  cases a with
  | or t a => exact t.isLoose_regroup_some _
  | one t =>
    cases t with
    | array a => exact (a.regroup none).isLoose_arrayOf
    | _ => rfl

theorem Form.operandChars_regroup {a : Form} (h : (a.regroup none).chars = a.chars ++ []) :
    (a.regroup none).operandChars = a.operandChars := by
  rw [operandChars, operandChars, asOperand, asOperand, isLoose_regroup, h, List.append_nil]

mutual

theorem Form.chars_regroup : ∀ (a : Form) (rest : Option Form),
    (a.regroup rest).chars = a.chars ++ restChars rest
  | .one t, rest => t.chars_regroup rest
  | .or t a, rest => by
      rw [Form.regroup, t.chars_regroup, restChars, a.chars_regroup, Form.chars]
      simp only [List.append_assoc]

theorem Alternative.chars_regroup : ∀ (t : Alternative) (rest : Option Form),
    (t.regroup rest).chars = t.chars ++ restChars rest
  | .reference _ [], rest => Alternative.chars_before _ rest
  | .reference x (a :: as), rest => by
      rw [Alternative.regroup, Alternative.chars_before, regroupAll, Alternative.chars,
        Alternative.chars, a.chars_regroup, moreChars_regroup as, restChars, List.append_nil]
  | .array a, rest => by
      rw [Alternative.regroup, Alternative.chars_before, Form.chars_arrayOf,
        Form.operandChars_regroup (a.chars_regroup none), Alternative.chars, Form.operandChars]
  | .intersection a b cs, rest => by
      have first := Form.operandChars_regroup (a.chars_regroup none)
      have second := Form.operandChars_regroup (b.chars_regroup none)
      unfold Form.operandChars at first second
      rw [Alternative.regroup, Alternative.chars_before, Alternative.chars, Alternative.chars,
        first, second, moreOperandChars_regroup cs]
  | .tuple [], rest => Alternative.chars_before _ rest
  | .tuple (a :: as), rest => by
      rw [Alternative.regroup, Alternative.chars_before, regroupAll, Alternative.chars,
        Alternative.chars, a.chars_regroup, moreChars_regroup as, restChars, List.append_nil]
  | .operator x a, rest => by
      have operand := Form.operandChars_regroup (a.chars_regroup none)
      unfold Form.operandChars at operand
      rw [Alternative.regroup, Alternative.chars_before, Alternative.chars, Alternative.chars,
        operand]
  | .function [] a, rest => by
      rw [Alternative.regroup, regroupParameters, Form.chars, Alternative.chars, a.chars_regroup,
        Alternative.chars, List.append_assoc]
  | .function (⟨isRest, x, isOptional, b⟩ :: ps) a, rest => by
      rw [Alternative.regroup, regroupParameters, Form.chars, Alternative.chars, a.chars_regroup,
        Alternative.chars, b.chars_regroup, moreParameterChars_regroup ps, restChars,
        List.append_nil]
      simp [Parameter.header]

theorem moreChars_regroup : ∀ as : List Form, moreChars (regroupAll as) = moreChars as
  | [] => rfl
  | a :: as => by
      rw [regroupAll, moreChars, moreChars, a.chars_regroup, moreChars_regroup as, restChars,
        List.append_nil]

theorem moreOperandChars_regroup : ∀ as : List Form,
    moreOperandChars (regroupAll as) = moreOperandChars as
  | [] => rfl
  | a :: as => by
      have operand := Form.operandChars_regroup (a.chars_regroup none)
      unfold Form.operandChars at operand
      rw [regroupAll, moreOperandChars, moreOperandChars, operand, moreOperandChars_regroup as]

theorem moreParameterChars_regroup : ∀ ps : List (Parameter Form),
    moreParameterChars (regroupParameters ps) = moreParameterChars ps
  | [] => rfl
  | ⟨isRest, x, isOptional, a⟩ :: ps => by
      rw [regroupParameters, moreParameterChars, moreParameterChars, a.chars_regroup,
        moreParameterChars_regroup ps, restChars, List.append_nil]
      rfl

end

mutual

theorem Form.regroup_eq_self : ∀ {a : Form}, a.Grouped → a.regroup none = a
  | .one _, h => Alternative.regroup_eq_before h (.inr rfl)
  | .or _ _, h => by
      rw [Form.regroup, Form.regroup_eq_self h.2.2, Alternative.regroup_eq_before h.2.1 (.inl h.1)]
      rfl

theorem Alternative.regroup_eq_before : ∀ {t : Alternative} {rest : Option Form}, t.Grouped →
    t.isFunction = false ∨ rest = none → t.regroup rest = t.before rest
  | .reference _ _, _, h, _ => by
      rw [Alternative.regroup, regroupAll_eq_self h]
  | .array _, _, h, _ => by
      rw [Alternative.regroup, Form.regroup_eq_self h.2, Form.arrayOf_eq_array h.1]
  | .intersection _ _ _, _, h, _ => by
      rw [Alternative.regroup, Form.regroup_eq_self h.1, Form.regroup_eq_self h.2.1,
        regroupAll_eq_self h.2.2]
  | .tuple _, _, h, _ => by
      rw [Alternative.regroup, regroupAll_eq_self h]
  | .operator _ _, _, h, _ => by
      rw [Alternative.regroup, Form.regroup_eq_self h]
  | .function _ _, _, h, last => by
      obtain notFunction | rfl := last
      · exact nomatch notFunction
      · rw [Alternative.regroup, regroupParameters_eq_self h.1, Form.regroup_eq_self h.2]
        rfl

theorem regroupAll_eq_self : ∀ {as : List Form}, allGrouped as → regroupAll as = as
  | [], _ => rfl
  | _ :: _, h => by
      rw [regroupAll, Form.regroup_eq_self h.1, regroupAll_eq_self h.2]

theorem regroupParameters_eq_self : ∀ {ps : List (Parameter Form)}, parametersGrouped ps →
    regroupParameters ps = ps
  | [], _ => rfl
  | ⟨_, _, _, _⟩ :: _, h => by
      rw [regroupParameters, Form.regroup_eq_self h.1, regroupParameters_eq_self h.2]

end

def Form.regrouped (a : Form) : Form := a.regroup none

theorem Form.regrouped_grouped (a : Form) : a.regrouped.Grouped := a.regroup_grouped nofun

theorem Form.chars_regrouped (a : Form) : a.regrouped.chars = a.chars :=
  (a.chars_regroup none).trans (List.append_nil _)

theorem Form.regrouped_eq_self_iff {a : Form} : a.regrouped = a ↔ a.Grouped := by
  constructor
  · intro h
    rw [← h]
    exact a.regrouped_grouped
  · exact Form.regroup_eq_self

end DocTree
