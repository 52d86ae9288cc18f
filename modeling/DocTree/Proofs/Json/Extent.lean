import DocTree.Proofs.Json.Scanning

/-!
# Where a value ends

What a text spells is spelled whatever stands behind it. All values but numbers also tell by
themselves where they end, so a text that goes on behind such a value starts with no other
one.
-/
namespace DocTree.Json

variable {cs rest : List Char}

theorem Spaces.append (h : Spaces cs rest) (after : List Char) :
    Spaces (cs ++ after) (rest ++ after) := by
  induction h with
  | nil => exact .nil
  | cons space _ ih => exact .cons space ih

theorem Digits.append {ds : List Nat} (h : Digits ds cs rest) (after : List Char) :
    Digits ds (cs ++ after) (rest ++ after) := by
  induction h with
  | last digit => exact .last digit
  | cons digit _ ih => exact .cons digit ih

theorem Minus.append {negative : Bool} (h : Minus negative cs rest) (after : List Char) :
    Minus negative (cs ++ after) (rest ++ after) := by
  cases h with
  | absent => exact .absent
  | present => exact .present

theorem Fraction.append {ds : List Nat} (h : Fraction ds cs rest) (after : List Char) :
    Fraction ds (cs ++ after) (rest ++ after) := by
  cases h with
  | absent => exact .absent
  | present digits => exact .present (digits.append after)

theorem Exponent.append {e : Option (Bool × List Nat)} (h : Exponent e cs rest)
    (after : List Char) : Exponent e (cs ++ after) (rest ++ after) := by
  cases h with
  | absent => exact .absent
  | present mark sign digits => exact .present mark (sign.append after) (digits.append after)
  | plus mark digits => exact .plus mark (digits.append after)

theorem Numeral.Spelled.append {n : Numeral} (h : n.Spelled cs rest) (after : List Char) :
    n.Spelled (cs ++ after) (rest ++ after) := by
  obtain ⟨sign, whole, zero, fraction, exponent⟩ := h
  exact .intro (sign.append after) (whole.append after) zero (fraction.append after)
    (exponent.append after)

theorem Literal.Spelled.append {t : Literal} (h : t.Spelled cs rest) (after : List Char) :
    t.Spelled (cs ++ after) (rest ++ after) := by
  induction h with
  | close => exact .close
  | plain quote backslash high _ ih => exact .plain quote backslash high ih
  | short escape _ ih => exact .short escape ih
  | numbered hex _ ih => exact .numbered hex ih

mutual

theorem Spelled.append : ∀ {j : Json} {cs rest : List Char}, j.Spelled cs rest →
    ∀ after, j.Spelled (cs ++ after) (rest ++ after)
  | _, _, _, .space blank h, after => .space blank (h.append after)
  | _, _, _, .null, _ => .null
  | _, _, _, .yes, _ => .yes
  | _, _, _, .no, _ => .no
  | _, _, _, .number h, after => .number (h.append after)
  | _, _, _, .text h, after => .text (Literal.Spelled.append h after)
  | _, _, _, .emptyList h, after => .emptyList (h.append after)
  | _, _, _, .list h, after => .list (h.append after)
  | _, _, _, .emptyObject h, after => .emptyObject (h.append after)
  | _, _, _, .object h, after => .object (h.append after)

theorem ItemsSpelled.append : ∀ {js : List Json} {cs rest : List Char}, ItemsSpelled js cs rest →
    ∀ after, ItemsSpelled js (cs ++ after) (rest ++ after)
  | _, _, _, .last h spaces, after => .last (h.append after) (spaces.append after)
  | _, _, _, .cons h spaces others, after =>
      .cons (h.append after) (spaces.append after) (others.append after)

theorem MembersSpelled.append : ∀ {ms : List Member} {cs rest : List Char},
    MembersSpelled ms cs rest → ∀ after, MembersSpelled ms (cs ++ after) (rest ++ after)
  | _, _, _, .last h spaces, after => .last (h.append after) (spaces.append after)
  | _, _, _, .cons h spaces others, after =>
      .cons (h.append after) (spaces.append after) (others.append after)

theorem MemberSpelled.append : ∀ {m : Member} {cs rest : List Char}, MemberSpelled m cs rest →
    ∀ after, MemberSpelled m (cs ++ after) (rest ++ after)
  | _, _, _, .intro opening key colon value, after =>
      .intro (opening.append after) (Literal.Spelled.append key after) (colon.append after)
        (value.append after)

end

theorem spaces_nil_iff : Spaces cs [] ↔ ∀ c ∈ cs, isSpace c = true := by
  constructor
  · intro h
    generalize hrest : ([] : List Char) = rest at h
    induction h with
    | nil =>
      subst hrest
      exact fun c hc => absurd hc List.not_mem_nil
    | cons space _ ih => exact List.forall_mem_cons.2 ⟨space, ih hrest⟩
  · intro h
    induction cs with
    | nil => exact .nil
    | cons c cs ih =>
      obtain ⟨space, others⟩ := List.forall_mem_cons.1 h
      exact .cons space (ih others)

/-- A text starts with at most one value that is no number, and this value ends in one place. -/
theorem Spelled.unique {j k : Json} {behind : List Char} (hj : j.Spelled cs rest)
    (hk : k.Spelled cs behind) (noNumber : ∀ n, j ≠ .number n) (noNumber' : ∀ n, k ≠ .number n) :
    j = k ∧ rest = behind := by
  have first := hj.scanValue_eq (fun n h => absurd h (noNumber n)) (3 * cs.length) (by omega)
  have second := hk.scanValue_eq (fun n h => absurd h (noNumber' n)) (3 * cs.length) (by omega)
  obtain ⟨same, ends⟩ := Prod.mk.inj (first.symm.trans second)
  exact ⟨same, Option.some.inj ends⟩

theorem SpelledBy.append {j : Json} {s : String} (h : j.SpelledBy s) {after : String}
    (spaces : ∀ c ∈ after.toList, isSpace c = true) : j.SpelledBy (s ++ after) := by
  obtain ⟨rest, hj, hrest⟩ := h
  refine ⟨rest ++ after.toList, ?_, spaces_nil_iff.2 (List.forall_mem_append.2 ⟨?_, spaces⟩)⟩
  · rw [String.toList_append]
    exact hj.append _
  · exact spaces_nil_iff.1 hrest

theorem SpelledBy.spaces_of_append {j k : Json} {s after : String} (hj : j.SpelledBy s)
    (hk : k.SpelledBy (s ++ after)) (noNumber : ∀ n, j ≠ .number n)
    (noNumber' : ∀ n, k ≠ .number n) : ∀ c ∈ after.toList, isSpace c = true := by
  obtain ⟨rest, hj, -⟩ := hj
  obtain ⟨behind, hk, hbehind⟩ := hk
  rw [String.toList_append] at hk
  obtain ⟨-, rfl⟩ := (hj.append after.toList).unique hk noNumber noNumber'
  exact (List.forall_mem_append.1 (spaces_nil_iff.1 hbehind)).2

end DocTree.Json
