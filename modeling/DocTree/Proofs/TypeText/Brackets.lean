/-!
# Brackets in a text

A text is read from left to right with the brackets that are open so far, and what stands outside
of all of them is kept. The text is balanced when every closing bracket closes the innermost open
one and none stays open. The arrow of a function is no bracket, though it ends in the sign of one.
-/
namespace DocTree

inductive Bracket where
  | round
  | square
  | curly
  | angle
  deriving DecidableEq, Repr

namespace Bracket

def left : Bracket → Char
  | round => '('
  | square => '['
  | curly => '\x7b'
  | angle => '<'

def right : Bracket → Char
  | round => ')'
  | square => ']'
  | curly => '\x7d'
  | angle => '>'

def all : List Bracket := [round, square, curly, angle]

def opened? (c : Char) : Option Bracket := all.find? (·.left == c)

def closed? (c : Char) : Option Bracket := all.find? (·.right == c)

end Bracket

open DocTree.Bracket (opened? closed?)

def kept (within : List Bracket) (part : List Char) : List Char :=
  if within.isEmpty then part else []

def turn (within : List Bracket) (c : Char) : Option (List Bracket × List Char) :=
  match opened? c, closed? c, within with
  | some b, _, _ => some (b :: within, [])
  | none, none, _ => some (within, kept within [c])
  | none, some b, b' :: within => if b = b' then some (within, []) else none
  | none, some _, [] => none

def outside : List Bracket → List Char → Option (List Char)
  | within, [] => if within.isEmpty then some [] else none
  | within, '=' :: '>' :: cs => (outside within cs).map (kept within ['=', '>'] ++ ·)
  | within, c :: cs => (turn within c).bind fun (within, ds) => (outside within cs).map (ds ++ ·)

example : outside [] "(a | b)[] & <T>(x: T) => T".toList = some " &  => T".toList := by decide

example : outside [] "(a]".toList = none := by decide

theorem outside_cons {within within' : List Bracket} {c : Char} {ds : List Char}
    (harrow : c ≠ '=') (h : turn within c = some (within', ds)) (cs : List Char) :
    outside within (c :: cs) = (outside within' cs).map (ds ++ ·) := by
  rw [outside]
  · rw [h]
    rfl
  · exact fun _ heq => absurd heq harrow

namespace Bracket

theorem turn_left (b : Bracket) (within : List Bracket) :
    turn within b.left = some (b :: within, []) := by
  cases b <;> rfl

theorem turn_right (b : Bracket) (within : List Bracket) :
    turn (b :: within) b.right = some (within, []) := by
  cases b <;> rfl

theorem left_ne (b : Bracket) : b.left ≠ '=' := by
  cases b <;> decide

theorem right_ne (b : Bracket) : b.right ≠ '=' := by
  cases b <;> decide

end Bracket

/-- The part is balanced, and wherever it stands `ds` is what stands outside of its brackets. -/
def Leaves (cs ds : List Char) : Prop :=
  ∀ within rest, outside within (cs ++ rest) = (outside within rest).map (kept within ds ++ ·)

structure IsPlain (c : Char) : Prop where
  opens : opened? c = none
  closes : closed? c = none
  ne_arrow : c ≠ '='

instance (c : Char) : Decidable (IsPlain c) :=
  decidable_of_iff (opened? c = none ∧ closed? c = none ∧ c ≠ '=')
    ⟨fun h => ⟨h.1, h.2.1, h.2.2⟩, fun h => ⟨h.opens, h.closes, h.ne_arrow⟩⟩

namespace Leaves

variable {cs ds cs' ds' : List Char}

theorem outside_eq (h : Leaves cs ds) : outside [] cs = some ds := by
  have alone := h [] []
  rw [List.append_nil] at alone
  rw [alone]
  exact congrArg some (List.append_nil ds)

theorem kept_nil (within : List Bracket) : kept within [] = [] := by
  cases within <;> rfl

theorem nil : Leaves [] [] := by
  intro within rest
  rw [kept_nil]
  exact (Option.map_id' ..).symm

theorem append (h : Leaves cs ds) (h' : Leaves cs' ds') : Leaves (cs ++ cs') (ds ++ ds') := by
  intro within rest
  rw [List.append_assoc, h, h', Option.map_map]
  congr 1
  funext es
  cases within with
  | nil => exact (List.append_assoc ds ds' es).symm
  | cons b within => rfl

theorem char {c : Char} (h : IsPlain c) : Leaves [c] [c] := by
  intro within rest
  have plain : turn within c = some (within, kept within [c]) := by
    unfold turn
    rw [h.opens, h.closes]
  exact outside_cons h.ne_arrow plain rest

theorem plain (h : ∀ c ∈ cs, IsPlain c) : Leaves cs cs := by
  induction cs with
  | nil => exact .nil
  | cons c cs ih =>
    have first : Leaves [c] [c] := .char (h c List.mem_cons_self)
    exact first.append (ih fun d hd => h d (List.mem_cons_of_mem _ hd))

theorem arrow : Leaves ['=', '>'] ['=', '>'] := fun _ _ => rfl

theorem bracketed (h : Leaves cs ds) (b : Bracket) : Leaves (b.left :: (cs ++ [b.right])) [] := by
  intro within rest
  have behind := outside_cons b.right_ne (b.turn_right within) rest
  rw [List.cons_append, List.append_assoc, outside_cons b.left_ne (b.turn_left within), h,
    List.singleton_append, behind, kept_nil]
  simp only [List.nil_append, Option.map_id', kept, List.isEmpty_cons, Bool.false_eq_true, if_false]

end Leaves

def PlainText (P : Char → Prop) (s : String) : Prop := ∀ c ∈ s.toList, IsPlain c ∧ P c

instance (P : Char → Prop) [DecidablePred P] (s : String) : Decidable (PlainText P s) :=
  List.decidableBAll (fun c => IsPlain c ∧ P c) s.toList

/-- The text is balanced, and all that stands outside of its brackets has the property. -/
def Exposes (P : Char → Prop) (s : String) : Prop := ∃ ds, Leaves s.toList ds ∧ ∀ c ∈ ds, P c

namespace Exposes

variable {P Q : Char → Prop} {s t : String}

theorem mono (h : Exposes P s) (hPQ : ∀ c, P c → Q c) : Exposes Q s := by
  obtain ⟨ds, leaves, all⟩ := h
  exact ⟨ds, leaves, fun c hc => hPQ c (all c hc)⟩

theorem append (h : Exposes P s) (h' : Exposes P t) : Exposes P (s ++ t) := by
  obtain ⟨ds, leaves, all⟩ := h
  obtain ⟨ds', leaves', all'⟩ := h'
  refine ⟨ds ++ ds', ?_, List.forall_mem_append.2 ⟨all, all'⟩⟩
  rw [String.toList_append]
  exact leaves.append leaves'

theorem plain (h : PlainText P s) : Exposes P s :=
  ⟨s.toList, .plain fun c hc => (h c hc).1, fun c hc => (h c hc).2⟩

theorem arrow (hequals : P '=') (hsign : P '>') : Exposes P "=>" :=
  ⟨_, .arrow, by simp [hequals, hsign]⟩

theorem bracketed (h : Exposes Q s) (b : Bracket) {l r : String} (hl : l.toList = [b.left])
    (hr : r.toList = [b.right]) : Exposes P (l ++ s ++ r) := by
  obtain ⟨ds, leaves, -⟩ := h
  refine ⟨[], ?_, nofun⟩
  rw [String.toList_append, String.toList_append, hl, hr, List.append_assoc]
  exact leaves.bracketed b

theorem intercalate {sep : String} {texts : List String} (hsep : Exposes P sep)
    (h : ∀ s ∈ texts, Exposes P s) : Exposes P (sep.intercalate texts) := by
  induction texts with
  | nil => exact .plain nofun
  | cons s texts ih =>
    have first := h s List.mem_cons_self
    cases texts with
    | nil => rwa [String.intercalate_singleton]
    | cons t texts =>
      rw [String.intercalate_cons_cons]
      exact (first.append hsep).append (ih fun u hu => h u (List.mem_cons_of_mem _ hu))

end Exposes

end DocTree
