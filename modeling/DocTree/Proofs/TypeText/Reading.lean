import DocTree.Proofs.TypeText.Reader

/-!
# Reading the text of a type

The text of a grouped form is read back as this form; three units of fuel for each node of
the form are enough. So two forms have the same text just when they are regrouped alike.
-/
namespace DocTree

/-- Each way to read a form gives it back, with the fuel that its size asks for. Only an operand
that is not an operator's type may have brackets behind it. -/
structure Form.Readable (a : Form) : Prop where
  form : ∀ {n r}, 3 * sizeOf a ≤ n → BehindForm r → readForm n (a.chars ++ r) = some (a, r)
  operand : ∀ {n r}, 3 * sizeOf a + 1 ≤ n → BehindOperand r →
    readOperand n (a.operandChars ++ r) = some (a, r)
  element : a.isOperator = false → ∀ {n r}, 3 * sizeOf a + 1 ≤ n → BehindElement r →
    readOperand n (a.operandChars ++ r) = some (readBrackets a r)

structure Alternative.Readable (t : Alternative) : Prop where
  alternative : ∀ {n r}, 3 * sizeOf t + 2 ≤ n →
    BehindForm r ∨ t.isFunction = false ∧ BehindAlternative r →
    readAlternative n (t.chars ++ r) = some (t, r)
  operand : (Form.one t).isLoose = false → ∀ {n r}, 3 * sizeOf t + 1 ≤ n → BehindOperand r →
    readOperand n (t.chars ++ r) = some (.one t, r)
  element : (Form.one t).isLoose = false → (Form.one t).isOperator = false →
    ∀ {n r}, 3 * sizeOf t + 1 ≤ n → BehindElement r →
    readOperand n (t.chars ++ r) = some (readBrackets (.one t) r)

section Readable

variable {a b : Form} {t : Alternative} {as : List Form} {x : Identifier} {n : Nat}
  {r : List Char}

theorem expect_self (c : Char) (cs : List Char) : expect c (c :: cs) = some cs := if_pos rfl

theorem readOperand_parenthesized (h : readForm n (a.chars ++ ')' :: r) = some (a, ')' :: r)) :
    readOperand (n + 1) ('(' :: (a.chars ++ [')']) ++ r) = some (readBrackets a r) := by
  have text : '(' :: (a.chars ++ [')']) ++ r = '(' :: (a.chars ++ ')' :: r) := by simp
  rw [text, readOperand, if_pos rfl, h]
  simp [expect_self]

theorem readAlternative_operand (hf : t.isFunction = false)
    (h : readOperand (n + 1) (t.chars ++ r) = some (.one t, r)) (hr : BehindAlternative r) :
    readAlternative (n + 2) (t.chars ++ r) = some (t, r) := by
  rw [readAlternative, if_neg (by simp [t.startsFunction_chars hf r]), h]
  simp [readMoreOperands_nil hr]

theorem Alternative.Readable.of_tight (tight : (Form.one t).isLoose = false)
    (operand : ∀ {n r}, 3 * sizeOf t + 1 ≤ n → BehindOperand r →
      readOperand n (t.chars ++ r) = some (.one t, r))
    (element : (Form.one t).isOperator = false → ∀ {n r}, 3 * sizeOf t + 1 ≤ n →
      BehindElement r → readOperand n (t.chars ++ r) = some (readBrackets (.one t) r)) :
    t.Readable where
  alternative := by
    intro n r hn hr
    have notFunction : t.isFunction = false := by
      cases t with
      | function => cases tight
      | _ => rfl
    have behind : BehindAlternative r := hr.elim .form And.right
    obtain ⟨m, rfl⟩ : ∃ m, n = m + 2 := ⟨n - 2, by omega⟩
    exact readAlternative_operand notFunction (operand (by omega) (.alternative behind)) behind
  operand _ := operand
  element _ := element

theorem Alternative.Readable.of_element (tight : (Form.one t).isLoose = false)
    (element : ∀ {n r}, 3 * sizeOf t + 1 ≤ n → BehindElement r →
      readOperand n (t.chars ++ r) = some (readBrackets (.one t) r)) : t.Readable := by
  refine .of_tight tight (fun hn hr => ?_) fun _ => element
  rw [element hn (.operand hr), readBrackets_eq _ hr]

theorem Form.Readable.of_form
    (form : ∀ {n r}, 3 * sizeOf a ≤ n → BehindForm r → readForm n (a.chars ++ r) = some (a, r))
    (loose : a.isLoose = true) : a.Readable := by
  have element {n r} (hn : 3 * sizeOf a + 1 ≤ n) :
      readOperand n (a.operandChars ++ r) = some (readBrackets a r) := by
    rw [Form.operandChars_loose loose]
    obtain ⟨m, rfl⟩ : ∃ m, n = m + 1 := ⟨n - 1, by omega⟩
    exact readOperand_parenthesized (form (by omega) (.close (.inl rfl)))
  refine ⟨form, fun hn hr => ?_, fun _ _ _ hn _ => element hn⟩
  rw [element hn, readBrackets_eq _ hr]

theorem Form.readable_one (h : t.Readable) : (Form.one t).Readable := by
  have form {n r} (hn : 3 * sizeOf (Form.one t) ≤ n) (hr : BehindForm r) :
      readForm n ((Form.one t).chars ++ r) = some (.one t, r) := by
    rw [Form.one.sizeOf_spec] at hn
    obtain ⟨m, rfl⟩ : ∃ m, n = m + 1 := ⟨n - 1, by omega⟩
    exact readForm_one (h.alternative (by omega) (.inl hr)) hr
  cases loose : (Form.one t).isLoose with
  | true => exact .of_form form loose
  | false =>
    have size : sizeOf (Form.one t) = 1 + sizeOf t := Form.one.sizeOf_spec t
    have chars : (Form.one t).operandChars = t.chars := Form.operandChars_tight loose
    refine ⟨form, fun hn hr => ?_, fun hop n r hn hr => ?_⟩
    · rw [chars]
      exact h.operand loose (by omega) hr
    · rw [chars]
      exact h.element loose hop (by omega) hr

theorem Form.readable_or (ht : t.Readable) (hf : t.isFunction = false) (ha : a.Readable) :
    (Form.or t a).Readable := by
  refine .of_form (fun {n r} hn hr => ?_) rfl
  rw [Form.or.sizeOf_spec] at hn
  obtain ⟨m, rfl⟩ : ∃ m, n = m + 1 := ⟨n - 1, by omega⟩
  have text : (Form.or t a).chars ++ r = t.chars ++ ' ' :: '|' :: ' ' :: (a.chars ++ r) := by
    simp [Form.chars]
  rw [text]
  exact readForm_or (ht.alternative (by omega) (.inr ⟨hf, .or⟩)) (ha.form (by omega) hr)

theorem behind_moreChars {c : Char} (hc : c = ']' ∨ c = '>') :
    BehindForm (moreChars as ++ c :: r) := by
  cases as with
  | nil => exact .close (.inr (hc.imp_right .inl))
  | cons => exact .close (.inr (.inr (.inr rfl)))

theorem readMore_chars (h : ∀ a ∈ as, a.Readable) {c : Char} (hc : c = ']' ∨ c = '>')
    (hn : 3 * sizeOf as ≤ n) : readMore n (moreChars as ++ c :: r) = some (as, c :: r) := by
  induction as generalizing n with
  | nil =>
    rw [List.nil.sizeOf_spec] at hn
    obtain ⟨m, rfl⟩ : ∃ m, n = m + 1 := ⟨n - 1, by omega⟩
    obtain rfl | rfl := hc <;> rfl
  | cons a as ih =>
    rw [List.cons.sizeOf_spec] at hn
    obtain ⟨m, rfl⟩ : ∃ m, n = m + 1 := ⟨n - 1, by omega⟩
    obtain ⟨first, rest⟩ := List.forall_mem_cons.1 h
    have text : moreChars (a :: as) ++ c :: r =
        ',' :: ' ' :: (a.chars ++ (moreChars as ++ c :: r)) := by simp [moreChars]
    have tail := ih (n := m) rest (by omega)
    rw [text, readMore, first.form (by omega) (behind_moreChars hc)]
    simp [tail]

theorem readForms_chars (h : ∀ b ∈ a :: as, b.Readable) {c : Char} (hc : c = ']' ∨ c = '>')
    (hn : 3 * sizeOf (a :: as) ≤ n) :
    readForms n c (a.chars ++ moreChars as ++ [c] ++ r) = some (a :: as, r) := by
  rw [List.cons.sizeOf_spec] at hn
  obtain ⟨m, rfl⟩ : ∃ m, n = m + 1 := ⟨n - 1, by omega⟩
  obtain ⟨first, rest⟩ := List.forall_mem_cons.1 h
  have text : a.chars ++ moreChars as ++ [c] ++ r = a.chars ++ (moreChars as ++ c :: r) := by simp
  have open' : (a.chars ++ (moreChars as ++ c :: r)).head? ≠ some c := by
    obtain ⟨d, ds, hd, opens⟩ := a.leads.opens
    have other : d ≠ c := by
      obtain rfl | rfl := hc
      · exact opens.ne (by decide) (by decide)
      · exact opens.ne (by decide) (by decide)
    simpa [hd] using other
  have tail := readMore_chars (n := m) (r := r) rest hc (by omega)
  rw [text, readForms, if_neg open', first.form (by omega) (behind_moreChars hc)]
  simp [tail, expect_self]

theorem readMoreOperands_chars (h : ∀ a ∈ as, a.Readable) (hr : BehindAlternative r)
    (hn : 3 * sizeOf as ≤ n) : readMoreOperands n (moreOperandChars as ++ r) = some (as, r) := by
  induction as generalizing n with
  | nil =>
    rw [List.nil.sizeOf_spec] at hn
    obtain ⟨m, rfl⟩ : ∃ m, n = m + 1 := ⟨n - 1, by omega⟩
    exact readMoreOperands_nil hr
  | cons a as ih =>
    rw [List.cons.sizeOf_spec] at hn
    obtain ⟨m, rfl⟩ : ∃ m, n = m + 1 := ⟨n - 1, by omega⟩
    obtain ⟨first, rest⟩ := List.forall_mem_cons.1 h
    have behind : BehindOperand (moreOperandChars as ++ r) := by
      cases as with
      | nil => exact .alternative hr
      | cons => exact .and
    have text : moreOperandChars (a :: as) ++ r =
        ' ' :: '&' :: ' ' :: (a.operandChars ++ (moreOperandChars as ++ r)) := by
      simp [moreOperandChars, Form.operandChars]
    have tail := ih (n := m) rest (by omega)
    rw [text, readMoreOperands, first.operand (by omega) behind]
    simp [tail]

theorem readHeader_chars (p : Parameter Form) :
    readHeader (p.header ++ r) = some (.mk p.isRest p.name p.isOptional, r) := by
  obtain ⟨isRest, x, isOptional, a⟩ := p
  have name : readIdentifier (x.chars ++ (markChars isOptional ++ r)) =
      some (x, markChars isOptional ++ r) :=
    readIdentifier_chars x (by cases isOptional <;> simp [markChars] <;> decide)
  have mark : readHeader.readMark isRest x (markChars isOptional ++ r) =
      some (.mk isRest x isOptional, r) := by
    cases isOptional <;> rfl
  cases isRest with
  | true =>
    have text : Parameter.header ⟨true, x, isOptional, a⟩ ++ r =
        '.' :: '.' :: '.' :: (x.chars ++ (markChars isOptional ++ r)) := by
      simp [Parameter.header]
    rw [text, readHeader, name]
    exact mark
  | false =>
    have text : Parameter.header ⟨false, x, isOptional, a⟩ ++ r =
        x.chars ++ (markChars isOptional ++ r) := by
      simp [Parameter.header]
    obtain ⟨c, cs, hx, start⟩ := x.chars_eq
    rw [text, readHeader, name]
    · exact mark
    · intro rest dots
      rw [hx] at dots
      obtain rfl := (List.cons.inj dots).1
      cases start

theorem behind_moreParameterChars {ps : List (Parameter Form)} :
    BehindForm (moreParameterChars ps ++ ')' :: r) := by
  cases ps with
  | nil => exact .close (.inl rfl)
  | cons => exact .close (.inr (.inr (.inr rfl)))

theorem readMoreParameters_chars {ps : List (Parameter Form)} (h : ∀ p ∈ ps, p.type.Readable)
    (hn : 3 * sizeOf ps ≤ n) :
    readMoreParameters n (moreParameterChars ps ++ ')' :: r) = some (ps, ')' :: r) := by
  induction ps generalizing n with
  | nil =>
    rw [List.nil.sizeOf_spec] at hn
    obtain ⟨m, rfl⟩ : ∃ m, n = m + 1 := ⟨n - 1, by omega⟩
    rfl
  | cons p ps ih =>
    obtain ⟨isRest, x, isOptional, a⟩ := p
    rw [List.cons.sizeOf_spec, Parameter.mk.sizeOf_spec] at hn
    obtain ⟨m, rfl⟩ : ∃ m, n = m + 1 := ⟨n - 1, by omega⟩
    obtain ⟨first, rest⟩ := List.forall_mem_cons.1 h
    have tail := ih (n := m) rest (by omega)
    have text : moreParameterChars (⟨isRest, x, isOptional, a⟩ :: ps) ++ ')' :: r =
        ',' :: ' ' :: (Parameter.header ⟨isRest, x, isOptional, a⟩ ++
          (a.chars ++ (moreParameterChars ps ++ ')' :: r))) := by
      simp [moreParameterChars]
    rw [text, readMoreParameters, readHeader_chars]
    simp [first.form (n := m) (by dsimp only; omega) behind_moreParameterChars, tail]

theorem Alternative.readable_reference (h : ∀ a ∈ as, a.Readable) :
    (Alternative.reference x as).Readable := by
  refine .of_element rfl (fun {n r} hn hr => ?_)
  rw [Alternative.reference.sizeOf_spec] at hn
  obtain ⟨m, rfl⟩ : ∃ m, n = m + 2 := ⟨n - 2, by omega⟩
  cases as with
  | nil =>
    rw [Alternative.chars, readOperand_identifier x fun c hc => (hr.head c hc).1]
    obtain (((_ | @⟨c, cs, rfl | rfl | rfl | rfl⟩) | _) | _) | _ := hr <;> rfl
  | cons a as =>
    have text : (Alternative.reference x (a :: as)).chars ++ r =
        x.chars ++ '<' :: (a.chars ++ moreChars as ++ ['>'] ++ r) := by
      simp [Alternative.chars]
    have forms := readForms_chars (n := m) (r := r) h (.inr rfl) (by omega)
    rw [text, readOperand_identifier x (by simp; decide), readNamed, forms]
    rfl

theorem Alternative.readable_tuple (h : ∀ a ∈ as, a.Readable) :
    (Alternative.tuple as).Readable := by
  refine .of_element rfl (fun {n r} hn _ => ?_)
  rw [Alternative.tuple.sizeOf_spec] at hn
  obtain ⟨m, rfl⟩ : ∃ m, n = m + 1 := ⟨n - 1, by omega⟩
  cases as with
  | nil =>
    rw [List.nil.sizeOf_spec] at hn
    obtain ⟨m, rfl⟩ : ∃ k, m = k + 1 := ⟨m - 1, by omega⟩
    rfl
  | cons a as =>
    have text : (Alternative.tuple (a :: as)).chars ++ r =
        '[' :: (a.chars ++ moreChars as ++ [']'] ++ r) := by
      simp [Alternative.chars]
    have forms := readForms_chars (n := m) (r := r) h (.inl rfl) (by omega)
    rw [text, readOperand, if_neg (by decide), if_pos rfl, forms]
    rfl

theorem Alternative.readable_array (h : a.Readable) (hop : a.isOperator = false) :
    (Alternative.array a).Readable := by
  refine .of_element rfl (fun {n r} hn _ => ?_)
  rw [Alternative.array.sizeOf_spec] at hn
  rw [Alternative.chars, List.append_assoc]
  exact h.element hop (by omega) .brackets

theorem Alternative.readable_operator (h : a.Readable) : (Alternative.operator x a).Readable := by
  refine .of_tight rfl (fun {n r} hn hr => ?_) nofun
  -- the operand starts with none of the signs that may stand between operands
  obtain ⟨d, ds, hd, opens⟩ := a.leads.operand.opens
  have other : ¬ (d = '|' ∨ d = '&') :=
    not_or.2 ⟨opens.ne (by decide) (by decide), opens.ne (by decide) (by decide)⟩
  rw [Alternative.operator.sizeOf_spec] at hn
  obtain ⟨m, rfl⟩ : ∃ m, n = m + 2 := ⟨n - 2, by omega⟩
  have text : (Alternative.operator x a).chars ++ r = x.chars ++ ' ' :: (a.operandChars ++ r) := by
    simp [Alternative.chars, Form.operandChars]
  have target := h.operand (n := m) (r := r) (by omega) hr
  rw [text, readOperand_identifier x (by simp; decide)]
  rw [hd, List.cons_append] at target ⊢
  rw [readNamed, if_neg other, target]
  rfl

theorem Alternative.readable_intersection (ha : a.Readable) (hb : b.Readable)
    (h : ∀ c ∈ as, c.Readable) : (Alternative.intersection a b as).Readable where
  alternative := by
    intro n r hn hr
    have behind : BehindAlternative r := hr.elim .form And.right
    rw [Alternative.intersection.sizeOf_spec] at hn
    obtain ⟨m, rfl⟩ : ∃ m, n = m + 1 := ⟨n - 1, by omega⟩
    have text : (Alternative.intersection a b as).chars ++ r =
        a.operandChars ++ (moreOperandChars (b :: as) ++ r) := by
      simp [Alternative.chars, moreOperandChars, Form.operandChars]
    have first := ha.operand (n := m) (r := moreOperandChars (b :: as) ++ r) (by omega) .and
    have others := readMoreOperands_chars (n := m) (List.forall_mem_cons.2 ⟨hb, h⟩) behind
      (by rw [List.cons.sizeOf_spec]; omega)
    rw [text, readAlternative, if_neg (by simp [a.startsFunction_operandChars]), first]
    simp [others]
  operand := nofun
  element := nofun

theorem opensParameters_header (p : Parameter Form) :
    opensParameters (p.header ++ r) = true := by
  obtain ⟨isRest, x, isOptional, a⟩ := p
  cases isRest with
  | true => rfl
  | false =>
    have text : Parameter.header ⟨false, x, isOptional, a⟩ ++ r =
        x.chars ++ (markChars isOptional ++ r) := by
      simp [Parameter.header]
    have rest : ∀ c ∈ (markChars isOptional ++ r).head?, isIdentifierRest c = false := by
      cases isOptional <;> simp [markChars] <;> decide
    rw [text, opensParameters, dropWhile_identifier x rest]
    cases isOptional <;> simp [markChars]

theorem readParameters_chars {p : Parameter Form} {ps : List (Parameter Form)}
    (h : ∀ q ∈ p :: ps, q.type.Readable) (hn : 3 * sizeOf (p :: ps) ≤ n) :
    readParameters n (p.header ++ (p.type.chars ++ (moreParameterChars ps ++ ')' :: r))) =
      some (p :: ps, ')' :: r) := by
  obtain ⟨isRest, x, isOptional, a⟩ := p
  rw [List.cons.sizeOf_spec, Parameter.mk.sizeOf_spec] at hn
  obtain ⟨m, rfl⟩ : ∃ m, n = m + 1 := ⟨n - 1, by omega⟩
  obtain ⟨first, rest⟩ := List.forall_mem_cons.1 h
  have tail := readMoreParameters_chars (n := m) (r := r) rest (by omega)
  have open' : (Parameter.header ⟨isRest, x, isOptional, a⟩ ++
      (a.chars ++ (moreParameterChars ps ++ ')' :: r))).head? ≠ some ')' := by
    obtain ⟨c, cs, hx, start⟩ := x.chars_eq
    have other : c ≠ ')' := by
      rintro rfl
      exact nomatch start
    cases isRest <;> simp [Parameter.header, hx, other]
  rw [readParameters, if_neg open', readHeader_chars]
  simp [first.form (n := m) (by dsimp only; omega) behind_moreParameterChars, tail]

theorem Alternative.readable_function {ps : List (Parameter Form)}
    (h : ∀ p ∈ ps, p.type.Readable) (ha : a.Readable) : (Alternative.function ps a).Readable where
  alternative := by
    intro n r hn hr
    have behind : BehindForm r := hr.elim id fun h => nomatch h.1
    rw [Alternative.function.sizeOf_spec] at hn
    obtain ⟨m, rfl⟩ : ∃ m, n = m + 1 := ⟨n - 1, by omega⟩
    have result := ha.form (n := m) (by omega) behind
    cases ps with
    | nil =>
      rw [List.nil.sizeOf_spec] at hn
      obtain ⟨k, rfl⟩ : ∃ k, m = k + 1 := ⟨m - 1, by omega⟩
      have starts : startsFunction (['(', ')', ' ', '=', '>', ' '] ++ a.chars ++ r) = true := rfl
      rw [Alternative.chars, readAlternative, if_pos starts]
      simp [readParameters, result]
    | cons p ps =>
      have text : (Alternative.function (p :: ps) a).chars ++ r =
          '(' :: (p.header ++ (p.type.chars ++ (moreParameterChars ps ++
            ')' :: ' ' :: '=' :: '>' :: ' ' :: (a.chars ++ r)))) := by
        obtain ⟨isRest, x, isOptional, b⟩ := p
        simp [Alternative.chars]
      have parameters := readParameters_chars (n := m)
        (r := ' ' :: '=' :: '>' :: ' ' :: (a.chars ++ r)) h (by omega)
      rw [text, readAlternative, startsFunction, if_pos (opensParameters_header p), List.tail_cons,
        parameters]
      simp [result]
  operand := nofun
  element := nofun

end Readable

mutual

theorem Form.readable : ∀ {a : Form}, a.Grouped → a.Readable
  | .one _, h => Form.readable_one (Alternative.readable h)
  | .or _ _, h => Form.readable_or (Alternative.readable h.2.1) h.1 (Form.readable h.2.2)

theorem Alternative.readable : ∀ {t : Alternative}, t.Grouped → t.Readable
  | .reference _ _, h => Alternative.readable_reference (allReadable h)
  | .array _, h => Alternative.readable_array (Form.readable h.2) h.1
  | .intersection _ _ _, h =>
      Alternative.readable_intersection (Form.readable h.1) (Form.readable h.2.1)
        (allReadable h.2.2)
  | .tuple _, h => Alternative.readable_tuple (allReadable h)
  | .operator _ _, h => Alternative.readable_operator (Form.readable h)
  | .function _ _, h =>
      Alternative.readable_function (parametersReadable h.1) (Form.readable h.2)

theorem allReadable : ∀ {as : List Form}, allGrouped as → ∀ a ∈ as, a.Readable
  | [], _ => fun _ ha => absurd ha List.not_mem_nil
  | _ :: _, h => List.forall_mem_cons.2 ⟨Form.readable h.1, allReadable h.2⟩

theorem parametersReadable : ∀ {ps : List (Parameter Form)}, parametersGrouped ps →
    ∀ p ∈ ps, p.type.Readable
  | [], _ => fun _ hp => absurd hp List.not_mem_nil
  | ⟨_, _, _, _⟩ :: _, h => List.forall_mem_cons.2 ⟨Form.readable h.1, parametersReadable h.2⟩

end

theorem Form.eq_of_chars_eq {a b : Form} (ha : a.Grouped) (hb : b.Grouped)
    (h : a.chars = b.chars) : a = b := by
  have first := (Form.readable ha).form (n := 3 * (sizeOf a + sizeOf b)) (by omega) .nil
  have second := (Form.readable hb).form (n := 3 * (sizeOf a + sizeOf b)) (by omega) .nil
  rw [h] at first
  exact congrArg Prod.fst (Option.some.inj (first.symm.trans second))

theorem Form.chars_eq_iff {a b : Form} : a.chars = b.chars ↔ a.regrouped = b.regrouped := by
  constructor
  · intro h
    apply Form.eq_of_chars_eq a.regrouped_grouped b.regrouped_grouped
    rw [a.chars_regrouped, b.chars_regrouped, h]
  · intro h
    rw [← a.chars_regrouped, h, b.chars_regrouped]

/-- Two types have the same text just when their forms are regrouped alike. So grouped types with
the same text have the same form. -/
theorem TypeExpr.text_eq_iff {t u : TypeExpr} {a b : Form} (ht : t.form? = some a)
    (hu : u.form? = some b) :
    (t.text = u.text ↔ a.regrouped = b.regrouped) ∧
      (a.Grouped → b.Grouped → t.text = u.text → a = b) := by
  rw [← String.toList_inj, TypeExpr.toList_text ht, TypeExpr.toList_text hu]
  exact ⟨Form.chars_eq_iff, Form.eq_of_chars_eq⟩

def TypeExpr.returning (t : TypeExpr) : TypeExpr :=
  .inline {
    name := "__type", kind := .typeLiteral, flags := none, comment := none, type := none,
    defaultValue := none, sources := [],
    signatures := [{
      name := "__call", kind := .callSignature, flags := none, comment := none, type := some t,
      defaultValue := none, sources := [], signatures := [], parameters := [], children := [],
      typeParameters := [] }],
    parameters := [], children := [], typeParameters := [] }

theorem TypeExpr.text_eq_iff_keyof :
    (array (operator "keyof" (reference "A" []))).text =
      (operator "keyof" (array (reference "A" []))).text ∧
    (union [returning (reference "A" []), reference "B" []]).text =
      (returning (union [reference "A" [], reference "B" []])).text ∧
    (union [reference "A" [], returning (reference "B" [])]).text ≠
      (returning (union [reference "A" [], reference "B" []])).text := by
  refine ⟨?operator, ?before, ?last⟩
  case operator =>
    refine (TypeExpr.text_eq_iff rfl rfl).1.2 ?_
    rfl
  case before =>
    refine (TypeExpr.text_eq_iff rfl rfl).1.2 ?_
    rfl
  case last =>
    intro same
    have apart := @TypeExpr.text_eq_iff (union [reference "A" [], returning (reference "B" [])])
      (returning (union [reference "A" [], reference "B" []])) _ _ rfl rfl
    exact nomatch apart.2 ⟨rfl, trivial, trivial, trivial⟩ ⟨trivial, rfl, trivial, trivial⟩ same

/-- An array of keys has the text of the keys of an array, and a union the text of a function that
returns one. -/
theorem TypeExpr.text_ambiguous :
    (∃ a b, (array (operator "keyof" (reference "A" []))).form? = some a ∧
      (operator "keyof" (array (reference "A" []))).form? = some b ∧ a ≠ b ∧
      (array (operator "keyof" (reference "A" []))).text =
        (operator "keyof" (array (reference "A" []))).text) ∧
    (∃ a b, (union [returning (reference "A" []), reference "B" []]).form? = some a ∧
      (returning (union [reference "A" [], reference "B" []])).form? = some b ∧ a ≠ b ∧
      (union [returning (reference "A" []), reference "B" []]).text =
        (returning (union [reference "A" [], reference "B" []])).text) := by
  constructor
  · refine ⟨_, _, rfl, rfl, ?_, ?_⟩
    · intro h
      exact nomatch h
    · rfl
  · refine ⟨_, _, rfl, rfl, ?_, ?_⟩
    · intro h
      exact nomatch h
    · rfl

end DocTree
