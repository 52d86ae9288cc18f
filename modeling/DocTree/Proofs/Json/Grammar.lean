import DocTree.Proofs.Json.Acceptance

/-!
# The grammar of JSON

What a text has to look like, apart from how it is scanned. Each relation takes a part off
the front of a text: it holds of what the part stands for, of the text and of the rest
behind the part. Space may stand in front of every part of a value. A value that a text
spells is whole, so any reader may pass over it.
-/
namespace DocTree.Json

inductive Spaces : List Char → List Char → Prop
  | nil {cs : List Char} : Spaces cs cs
  | cons {c : Char} {cs rest : List Char} :
      isSpace c = true → Spaces cs rest → Spaces (c :: cs) rest

inductive Digits : List Nat → List Char → List Char → Prop
  | last {c : Char} {rest : List Char} :
      c.isDigit = true → Digits [c.toNat - '0'.toNat] (c :: rest) rest
  | cons {c : Char} {ds : List Nat} {cs rest : List Char} :
      c.isDigit = true → Digits ds cs rest → Digits ((c.toNat - '0'.toNat) :: ds) (c :: cs) rest

inductive Minus : Bool → List Char → List Char → Prop
  | absent {cs : List Char} : Minus false cs cs
  | present {cs : List Char} : Minus true ('-' :: cs) cs

inductive Fraction : List Nat → List Char → List Char → Prop
  | absent {cs : List Char} : Fraction [] cs cs
  | present {ds : List Nat} {cs rest : List Char} :
      Digits ds cs rest → Fraction ds ('.' :: cs) rest

inductive Exponent : Option (Bool × List Nat) → List Char → List Char → Prop
  | absent {cs : List Char} : Exponent none cs cs
  | present {e : Char} {negative : Bool} {ds : List Nat} {cs after rest : List Char} :
      e = 'e' ∨ e = 'E' → Minus negative cs after → Digits ds after rest →
      Exponent (some (negative, ds)) (e :: cs) rest
  | plus {e : Char} {ds : List Nat} {cs rest : List Char} :
      e = 'e' ∨ e = 'E' → Digits ds cs rest → Exponent (some (false, ds)) (e :: '+' :: cs) rest

/-- No zero stands in front of another digit of the whole part. -/
inductive Numeral.Spelled : Numeral → List Char → List Char → Prop
  | intro {negative : Bool} {whole fraction : List Nat} {exponent : Option (Bool × List Nat)}
      {cs unsigned point scale rest : List Char} :
      Minus negative cs unsigned → Digits whole unsigned point →
      (∀ d ds, whole ≠ 0 :: d :: ds) → Fraction fraction point scale →
      Exponent exponent scale rest → Spelled ⟨negative, whole, fraction, exponent⟩ cs rest

inductive Literal.Spelled : Literal → List Char → List Char → Prop
  | close {rest : List Char} : Spelled ⟨[], .closed⟩ ('"' :: rest) rest
  | plain {c : Char} {t : Literal} {cs rest : List Char} :
      c ≠ '"' → c ≠ '\\' → 0x20 ≤ c.toNat → Spelled t cs rest →
      Spelled ⟨.char c :: t.pieces, t.ending⟩ (c :: cs) rest
  | short {e c : Char} {t : Literal} {cs rest : List Char} :
      shortEscape? e = some c → Spelled t cs rest →
      Spelled ⟨.char c :: t.pieces, t.ending⟩ ('\\' :: e :: cs) rest
  | numbered {a b c d : Char} {n : Nat} {t : Literal} {cs rest : List Char} :
      hexValue? a b c d = some n → Spelled t cs rest →
      Spelled ⟨.unit n :: t.pieces, t.ending⟩ ('\\' :: 'u' :: a :: b :: c :: d :: cs) rest

mutual

inductive Spelled : Json → List Char → List Char → Prop
  | space {j : Json} {c : Char} {cs rest : List Char} :
      isSpace c = true → Spelled j cs rest → Spelled j (c :: cs) rest
  | null {rest : List Char} : Spelled .null ('n' :: 'u' :: 'l' :: 'l' :: rest) rest
  | yes {rest : List Char} : Spelled (.boolean true) ('t' :: 'r' :: 'u' :: 'e' :: rest) rest
  | no {rest : List Char} :
      Spelled (.boolean false) ('f' :: 'a' :: 'l' :: 's' :: 'e' :: rest) rest
  | number {n : Numeral} {cs rest : List Char} :
      n.Spelled cs rest → Spelled (.number n) cs rest
  | text {t : Literal} {cs rest : List Char} :
      t.Spelled cs rest → Spelled (.text t) ('"' :: cs) rest
  | emptyList {cs rest : List Char} :
      Spaces cs (']' :: rest) → Spelled (.list [] .closed) ('[' :: cs) rest
  | list {items : List Json} {cs rest : List Char} :
      ItemsSpelled items cs rest → Spelled (.list items .closed) ('[' :: cs) rest
  | emptyObject {cs rest : List Char} :
      Spaces cs ('\x7d' :: rest) → Spelled (.object [] .closed) ('\x7b' :: cs) rest
  | object {members : List Member} {cs rest : List Char} :
      MembersSpelled members cs rest → Spelled (.object members .closed) ('\x7b' :: cs) rest

inductive ItemsSpelled : List Json → List Char → List Char → Prop
  | last {j : Json} {cs behind rest : List Char} :
      Spelled j cs behind → Spaces behind (']' :: rest) → ItemsSpelled [j] cs rest
  | cons {j : Json} {js : List Json} {cs behind next rest : List Char} :
      Spelled j cs behind → Spaces behind (',' :: next) → ItemsSpelled js next rest →
      ItemsSpelled (j :: js) cs rest

inductive MembersSpelled : List Member → List Char → List Char → Prop
  | last {m : Member} {cs behind rest : List Char} :
      MemberSpelled m cs behind → Spaces behind ('\x7d' :: rest) → MembersSpelled [m] cs rest
  | cons {m : Member} {ms : List Member} {cs behind next rest : List Char} :
      MemberSpelled m cs behind → Spaces behind (',' :: next) → MembersSpelled ms next rest →
      MembersSpelled (m :: ms) cs rest

inductive MemberSpelled : Member → List Char → List Char → Prop
  | intro {key : Literal} {j : Json} {cs opened named colon rest : List Char} :
      Spaces cs ('"' :: opened) → key.Spelled opened named → Spaces named (':' :: colon) →
      Spelled j colon rest → MemberSpelled (key, j) cs rest

end

def SpelledBy (j : Json) (s : String) : Prop :=
  ∃ rest, j.Spelled s.toList rest ∧ Spaces rest []

def TextsOf (R : Json → Json → Prop) (s s' : String) : Prop :=
  ∃ j k, j.SpelledBy s ∧ k.SpelledBy s' ∧ R j k

theorem Literal.Spelled.closed {t : Literal} {cs rest : List Char} (h : t.Spelled cs rest) :
    t.ending = .closed := by
  induction h with
  | close => rfl
  | plain _ _ _ _ ih => exact ih
  | short _ _ ih => exact ih
  | numbered _ _ ih => exact ih

theorem Literal.Spelled.skip {t : Literal} {cs rest : List Char} (h : t.Spelled cs rest) :
    t.skip = .ok () := by
  rw [Literal.skip, h.closed]
  rfl

mutual

theorem Spelled.skip : ∀ {j : Json} {cs rest : List Char}, j.Spelled cs rest → j.skip = .ok ()
  | _, _, _, .space _ h => h.skip
  | _, _, _, .null | _, _, _, .yes | _, _, _, .no | _, _, _, .number _ => rfl
  | _, _, _, .text h => Literal.Spelled.skip h
  | _, _, _, .emptyList _ => rfl
  | _, _, _, .list h => skip_list_eq_ok.2 ⟨h.skip, rfl⟩
  | _, _, _, .emptyObject _ => rfl
  | _, _, _, .object h => skip_object_eq_ok.2 ⟨h.skip, rfl⟩

theorem ItemsSpelled.skip : ∀ {js : List Json} {cs rest : List Char}, ItemsSpelled js cs rest →
    ∀ j ∈ js, j.skip = .ok ()
  | _, _, _, .last h _ => List.forall_mem_singleton.2 h.skip
  | _, _, _, .cons h _ rest => List.forall_mem_cons.2 ⟨h.skip, rest.skip⟩

theorem MembersSpelled.skip : ∀ {ms : List Member} {cs rest : List Char},
    MembersSpelled ms cs rest → ∀ m ∈ ms, m.1.skip = .ok () ∧ m.2.skip = .ok ()
  | _, _, _, .last h _ => List.forall_mem_singleton.2 h.skip
  | _, _, _, .cons h _ rest => List.forall_mem_cons.2 ⟨h.skip, rest.skip⟩

theorem MemberSpelled.skip : ∀ {m : Member} {cs rest : List Char}, MemberSpelled m cs rest →
    m.1.skip = .ok () ∧ m.2.skip = .ok ()
  | _, _, _, .intro _ key _ value => ⟨Literal.Spelled.skip key, value.skip⟩

end

end DocTree.Json
