import DocTree.Proofs.TypeText.Grouping

/-!
# A reader of the text of a type

The text of a form is read from left to right and without going back. An alternative that
starts with a parenthesis is told from a function literal by what follows the parenthesis,
an operator by the operand that follows its name; brackets apply to the operand before
them. The reader takes fuel.
-/
namespace DocTree

def readIdentifier (cs : List Char) : Option (Identifier × List Char) := do
  let x ← identifier? (String.ofList (cs.takeWhile isIdentifierRest))
  return (x, cs.dropWhile isIdentifierRest)

def readHeader (cs : List Char) : Option ((Form → Parameter Form) × List Char) :=
  match cs with
  | '.' :: '.' :: '.' :: cs => do
      let (x, cs) ← readIdentifier cs
      readMark true x cs
  | cs => do
      let (x, cs) ← readIdentifier cs
      readMark false x cs
where
  readMark (isRest : Bool) (x : Identifier) :
      List Char → Option ((Form → Parameter Form) × List Char)
    | '?' :: ':' :: ' ' :: cs => some (.mk isRest x true, cs)
    | ':' :: ' ' :: cs => some (.mk isRest x false, cs)
    | _ => none

def opensParameters (cs : List Char) : Bool :=
  cs.head? == some ')' || cs.head? == some '.' ||
    (cs.dropWhile isIdentifierRest).head? == some ':' ||
    (cs.dropWhile isIdentifierRest).head? == some '?'

def startsFunction : List Char → Bool
  | '(' :: cs => opensParameters cs
  | _ => false

def readBrackets : Form → List Char → Form × List Char
  | a, '[' :: ']' :: cs => readBrackets (.one (.array a)) cs
  | a, cs => (a, cs)

def expect (c : Char) : List Char → Option (List Char)
  | d :: cs => if d = c then some cs else none
  | [] => none

mutual

def readForm : Nat → List Char → Option (Form × List Char)
  | 0, _ => none
  | n + 1, cs => do
      let (t, cs) ← readAlternative n cs
      match cs with
      | ' ' :: '|' :: ' ' :: cs => do
          let (a, cs) ← readForm n cs
          return (.or t a, cs)
      | cs => return (.one t, cs)

def readAlternative : Nat → List Char → Option (Alternative × List Char)
  | 0, _ => none
  | n + 1, cs =>
      if startsFunction cs then do
        let (ps, cs) ← readParameters n cs.tail
        match cs with
        | ')' :: ' ' :: '=' :: '>' :: ' ' :: cs => do
            let (a, cs) ← readForm n cs
            return (.function ps a, cs)
        | _ => none
      else do
        let (a, cs) ← readOperand n cs
        let (as, cs) ← readMoreOperands n cs
        match a, as with
        | a, b :: as => return (.intersection a b as, cs)
        | .one t, [] => return (t, cs)
        | .or _ _, [] => none

def readOperand : Nat → List Char → Option (Form × List Char)
  | 0, _ => none
  | _, [] => none
  | n + 1, c :: cs =>
      if c = '(' then do
        let (a, cs) ← readForm n cs
        let cs ← expect ')' cs
        return readBrackets a cs
      else if c = '[' then do
        let (as, cs) ← readForms n ']' cs
        return readBrackets (.one (.tuple as)) cs
      else do
        let (x, cs) ← readIdentifier (c :: cs)
        readNamed n x cs

def readNamed : Nat → Identifier → List Char → Option (Form × List Char)
  | 0, _, _ => none
  | n + 1, x, '<' :: cs => do
      let (as, cs) ← readForms n '>' cs
      return readBrackets (.one (.reference x as)) cs
  | n + 1, x, ' ' :: c :: cs =>
      if c = '|' ∨ c = '&' then return (.one (.reference x []), ' ' :: c :: cs)
      else do
        let (a, cs) ← readOperand n (c :: cs)
        return (.one (.operator x a), cs)
  | _ + 1, x, cs => return readBrackets (.one (.reference x [])) cs

def readForms : Nat → Char → List Char → Option (List Form × List Char)
  | 0, _, _ => none
  | n + 1, close, cs =>
      if cs.head? = some close then return ([], cs.tail)
      else do
        let (a, cs) ← readForm n cs
        let (as, cs) ← readMore n cs
        let cs ← expect close cs
        return (a :: as, cs)

def readMore : Nat → List Char → Option (List Form × List Char)
  | 0, _ => none
  | n + 1, cs =>
      match cs with
      | ',' :: ' ' :: cs => do
          let (a, cs) ← readForm n cs
          let (as, cs) ← readMore n cs
          return (a :: as, cs)
      | cs => return ([], cs)

def readMoreOperands : Nat → List Char → Option (List Form × List Char)
  | 0, _ => none
  | n + 1, cs =>
      match cs with
      | ' ' :: '&' :: ' ' :: cs => do
          let (a, cs) ← readOperand n cs
          let (as, cs) ← readMoreOperands n cs
          return (a :: as, cs)
      | cs => return ([], cs)

def readParameters : Nat → List Char → Option (List (Parameter Form) × List Char)
  | 0, _ => none
  | n + 1, cs =>
      if cs.head? = some ')' then return ([], cs)
      else do
        let (parameter, cs) ← readHeader cs
        let (a, cs) ← readForm n cs
        let (ps, cs) ← readMoreParameters n cs
        return (parameter a :: ps, cs)

def readMoreParameters : Nat → List Char → Option (List (Parameter Form) × List Char)
  | 0, _ => none
  | n + 1, cs =>
      match cs with
      | ',' :: ' ' :: cs => do
          let (parameter, cs) ← readHeader cs
          let (a, cs) ← readForm n cs
          let (ps, cs) ← readMoreParameters n cs
          return (parameter a :: ps, cs)
      | cs => return ([], cs)

end

inductive BehindForm : List Char → Prop
  | nil : BehindForm []
  | close {c : Char} {cs : List Char} : c = ')' ∨ c = ']' ∨ c = '>' ∨ c = ',' →
      BehindForm (c :: cs)

inductive BehindAlternative : List Char → Prop
  | form {cs : List Char} : BehindForm cs → BehindAlternative cs
  | or {cs : List Char} : BehindAlternative (' ' :: '|' :: ' ' :: cs)

inductive BehindOperand : List Char → Prop
  | alternative {cs : List Char} : BehindAlternative cs → BehindOperand cs
  | and {cs : List Char} : BehindOperand (' ' :: '&' :: ' ' :: cs)

inductive BehindElement : List Char → Prop
  | operand {cs : List Char} : BehindOperand cs → BehindElement cs
  | brackets {cs : List Char} : BehindElement ('[' :: ']' :: cs)

section Behind

variable {n : Nat} {cs r : List Char}

theorem readBrackets_eq (a : Form) (h : BehindOperand cs) : readBrackets a cs = (a, cs) := by
  obtain ((_ | @⟨c, cs, rfl | rfl | rfl | rfl⟩) | _) | _ := h <;> rfl

theorem readMoreOperands_nil (h : BehindAlternative cs) :
    readMoreOperands (n + 1) cs = some ([], cs) := by
  obtain (_ | @⟨c, cs, rfl | rfl | rfl | rfl⟩) | _ := h <;> rfl

theorem readForm_one {t : Alternative} (h : readAlternative n cs = some (t, r))
    (hr : BehindForm r) : readForm (n + 1) cs = some (.one t, r) := by
  rw [readForm, h]
  obtain _ | @⟨c, cs, rfl | rfl | rfl | rfl⟩ := hr <;> rfl

theorem readForm_or {t : Alternative} {a : Form} {rest : List Char}
    (h : readAlternative n cs = some (t, ' ' :: '|' :: ' ' :: rest))
    (ha : readForm n rest = some (a, r)) : readForm (n + 1) cs = some (.or t a, r) := by
  rw [readForm, h]
  simp [ha]

theorem BehindElement.head (h : BehindElement cs) : ∀ c ∈ cs.head?,
    isIdentifierRest c = false ∧ c ≠ ':' ∧ c ≠ '?' := by
  obtain (((_ | @⟨c, cs, rfl | rfl | rfl | rfl⟩) | _) | _) | _ := h <;> simp <;> decide

end Behind

section Identifier

variable (x : Identifier) {n : Nat} {cs : List Char}

theorem Identifier.chars_eq : ∃ c cs, x.chars = c :: cs ∧ isIdentifierStart c = true := by
  have valid := x.valid
  unfold isIdentifier at valid
  rw [Identifier.chars]
  split at valid
  · cases valid
  · rename_i c cs hcs
    exact ⟨c, cs, hcs, (Bool.and_eq_true_iff.1 valid).1⟩

theorem Identifier.isIdentifierRest : ∀ c ∈ x.chars, DocTree.isIdentifierRest c = true := by
  have valid := x.valid
  unfold isIdentifier at valid
  rw [Identifier.chars]
  split at valid
  · cases valid
  · rename_i c cs hcs
    obtain ⟨start, rest⟩ := Bool.and_eq_true_iff.1 valid
    rw [hcs, List.forall_mem_cons]
    refine ⟨?_, List.all_eq_true.1 rest⟩
    rw [DocTree.isIdentifierRest, start, Bool.true_or]

theorem takeWhile_identifier (h : ∀ c ∈ cs.head?, isIdentifierRest c = false) :
    (x.chars ++ cs).takeWhile isIdentifierRest = x.chars := by
  rw [List.takeWhile_append_of_pos x.isIdentifierRest]
  cases cs with
  | nil => simp
  | cons c cs => rw [List.takeWhile_cons_of_neg (by simp [h c rfl]), List.append_nil]

theorem dropWhile_identifier (h : ∀ c ∈ cs.head?, isIdentifierRest c = false) :
    (x.chars ++ cs).dropWhile isIdentifierRest = cs := by
  rw [List.dropWhile_append_of_pos x.isIdentifierRest]
  cases cs with
  | nil => rfl
  | cons c cs => rw [List.dropWhile_cons_of_neg (by simp [h c rfl])]

theorem readIdentifier_chars (h : ∀ c ∈ cs.head?, isIdentifierRest c = false) :
    readIdentifier (x.chars ++ cs) = some (x, cs) := by
  have named : identifier? (String.ofList x.chars) = some x := by
    rw [Identifier.chars, String.ofList_toList]
    exact dif_pos x.valid
  rw [readIdentifier, takeWhile_identifier x h, dropWhile_identifier x h, named]
  rfl

theorem readOperand_identifier (h : ∀ c ∈ cs.head?, isIdentifierRest c = false) :
    readOperand (n + 1) (x.chars ++ cs) = readNamed n x cs := by
  obtain ⟨c, ds, hx, start⟩ := x.chars_eq
  have paren : c ≠ '(' := by
    rintro rfl
    exact nomatch start
  have bracket : c ≠ '[' := by
    rintro rfl
    exact nomatch start
  have name := readIdentifier_chars x h
  rw [hx, List.cons_append] at name ⊢
  rw [readOperand, if_neg paren, if_neg bracket, name]
  rfl

end Identifier

def Opens (c : Char) : Prop := c = '(' ∨ c = '[' ∨ isIdentifierStart c = true

theorem Opens.ne {c d : Char} (h : Opens c) (hd : d ∉ ['(', '['])
    (hd' : isIdentifierStart d = false) : c ≠ d := by
  rintro rfl
  obtain rfl | rfl | start := h
  · exact hd (by decide)
  · exact hd (by decide)
  · exact nomatch hd'.symm.trans start

structure Leads (cs : List Char) : Prop where
  opens : ∃ c cs', cs = c :: cs' ∧ Opens c
  plain : ∀ r, BehindElement r → opensParameters (cs ++ r) = false

section Leads

variable {cs ds : List Char}

theorem Leads.append (h : Leads cs) (hds : ∀ r, BehindElement (ds ++ r)) : Leads (cs ++ ds) := by
  obtain ⟨c, cs', rfl, hc⟩ := h.opens
  refine ⟨⟨c, cs' ++ ds, rfl, hc⟩, fun r _ => ?_⟩
  rw [List.append_assoc]
  exact h.plain _ (hds r)

theorem Leads.paren : Leads ('(' :: cs) := ⟨⟨_, _, rfl, .inl rfl⟩, fun _ _ => rfl⟩

theorem Leads.bracket : Leads ('[' :: cs) := ⟨⟨_, _, rfl, .inr (.inl rfl)⟩, fun _ _ => rfl⟩

theorem Leads.operand {a : Form} (h : Leads a.chars) : Leads a.operandChars := by
  unfold Form.operandChars Form.asOperand
  split
  · exact .paren
  · exact h

theorem opensParameters_identifier (x : Identifier) (h : ∀ c ∈ cs.head?,
    isIdentifierRest c = false ∧ c ≠ ':' ∧ c ≠ '?') : opensParameters (x.chars ++ cs) = false := by
  obtain ⟨c, ds, hx, start⟩ := x.chars_eq
  have opens : Opens c := .inr (.inr start)
  have paren : c ≠ ')' := opens.ne (by decide) (by decide)
  have dot : c ≠ '.' := opens.ne (by decide) (by decide)
  rw [opensParameters, dropWhile_identifier x fun c hc => (h c hc).1, hx]
  cases cs with
  | nil => simp [paren, dot]
  | cons d cs => simp [paren, dot, h d rfl]

theorem Leads.identifier (x : Identifier) (hds : ∀ r, BehindElement r →
    ∀ c ∈ (ds ++ r).head?, isIdentifierRest c = false ∧ c ≠ ':' ∧ c ≠ '?') :
    Leads (x.chars ++ ds) := by
  obtain ⟨c, cs, hx, start⟩ := x.chars_eq
  refine ⟨⟨c, cs ++ ds, by rw [hx]; rfl, .inr (.inr start)⟩, fun r hr => ?_⟩
  rw [List.append_assoc]
  exact opensParameters_identifier x (hds r hr)

end Leads

mutual

theorem Form.leads : ∀ a : Form, Leads a.chars
  | .one t => t.leads
  | .or t a => by
      rw [Form.chars, List.append_assoc]
      exact t.leads.append fun r => .operand (.alternative .or)

theorem Alternative.leads : ∀ t : Alternative, Leads t.chars
  | .reference x [] => by
      have h := @Leads.identifier [] x fun r hr => hr.head
      rwa [List.append_nil] at h
  | .reference x (a :: as) => Leads.identifier x fun r _ => by simp; decide
  | .array a => a.leads.operand.append fun r => .brackets
  | .intersection a b cs => by
      rw [Alternative.chars, List.append_assoc, List.append_assoc]
      exact a.leads.operand.append fun r => .operand .and
  | .tuple [] => .bracket
  | .tuple (_ :: _) => .bracket
  | .operator x a => Leads.identifier x fun r _ => by simp; decide
  | .function [] _ => .paren
  | .function (_ :: _) _ => .paren

end

theorem Form.operandChars_loose {a : Form} (h : a.isLoose = true) :
    a.operandChars = '(' :: (a.chars ++ [')']) := by
  rw [operandChars, asOperand, if_pos h]

theorem startsFunction_cons {c : Char} (h : c ≠ '(') (cs : List Char) :
    startsFunction (c :: cs) = false := by
  unfold startsFunction
  split
  · rename_i same
    exact absurd (List.cons.inj same).1 h
  · rfl

theorem startsFunction_identifier (x : Identifier) (cs : List Char) :
    startsFunction (x.chars ++ cs) = false := by
  obtain ⟨c, ds, hx, start⟩ := x.chars_eq
  have other : c ≠ '(' := by
    rintro rfl
    exact nomatch start
  rw [hx, List.cons_append, startsFunction_cons other]

mutual

theorem Form.startsFunction_operandChars : ∀ (a : Form) (r : List Char),
    startsFunction (a.operandChars ++ r) = false
  | .one t, r => by
      cases loose : (Form.one t).isLoose with
      | false =>
        have notFunction : t.isFunction = false := by
          cases t with
          | function => exact nomatch loose
          | _ => rfl
        rw [Form.operandChars_tight loose]
        exact t.startsFunction_chars notFunction r
      | true =>
        rw [Form.operandChars_loose loose, List.cons_append, List.append_assoc]
        exact (Form.one t).leads.plain _ (.operand (.alternative (.form (.close (.inl rfl)))))
  | .or t a, r => by
      rw [Form.operandChars_loose rfl, List.cons_append, List.append_assoc]
      exact (Form.or t a).leads.plain _ (.operand (.alternative (.form (.close (.inl rfl)))))

theorem Alternative.startsFunction_chars : ∀ (t : Alternative), t.isFunction = false →
    ∀ r, startsFunction (t.chars ++ r) = false
  | .reference x [], _, r => startsFunction_identifier x r
  | .reference x (a :: as), _, r => by
      rw [Alternative.chars, List.append_assoc]
      exact startsFunction_identifier x _
  | .array a, _, r => by
      rw [Alternative.chars, List.append_assoc]
      exact a.startsFunction_operandChars _
  | .intersection a b cs, _, r => by
      rw [Alternative.chars, List.append_assoc, List.append_assoc, List.append_assoc]
      exact a.startsFunction_operandChars _
  | .tuple [], _, _ => rfl
  | .tuple (_ :: _), _, _ => rfl
  | .operator x a, _, r => by
      rw [Alternative.chars, List.append_assoc]
      exact startsFunction_identifier x _

end

end DocTree
