import DocTree.Proofs.Reflection.Places
import DocTree.Proofs.Reflection.Texts
import Mathlib.Control.Monad.Basic
import Mathlib.Logic.Relation

/-!
# Extensions of a graph

An object in the text of a graph may hold more than its fields. A member with another key
is passed over, whatever its value; inside a type, where everything is checked before it
is read, the value has to pass the check. A field that may be missing may be null instead.
Neither changes the reflection that the text is read as.
-/
namespace DocTree

open Json (Regime Member Literal Ending Keeps)

inductive Json.Within : Nat → Json → Prop
  | null {n : Nat} : Within n .null
  | boolean {n : Nat} {b : Bool} : Within n (.boolean b)
  | number {n : Nat} {d : Json.Numeral} {x : Json.Number} : d.value = .ok x → Within n (.number d)
  | text {n : Nat} {t : Literal} {s : String} : t.read = .ok s → Within n (.text t)
  | list {n : Nat} {items : List Json} :
      (∀ j ∈ items, Within n j) → Within (n + 1) (.list items .closed)
  | object {n : Nat} {members : List Member} :
      (∀ m ∈ members, ∃ name, m.1.read = .ok name) → (∀ m ∈ members, Within n m.2) →
      Within (n + 1) (.object members .closed)

/-- What the value of a member that stands for no field may be: any JSON outside of types, and
inside of them what keeps within the limits. -/
def Json.Ignorable (g : Regime) (n : Nat) (v : Json) : Prop :=
  match g with
  | .direct => ∃ cs rest, v.Spelled cs rest
  | .kept => v.Within n

theorem Json.Within.check {n : Nat} {v : Json} (h : v.Within n) : v.check n = .ok () := by
  induction h with
  | null | boolean => rw [Json.check]
  | number hd => rw [Json.check, hd]; rfl
  | text ht => rw [Json.check, ht]; rfl
  | list _ ih => exact check_list_eq_ok.2 ⟨ih, rfl⟩
  | object named _ ih => exact check_object_eq_ok.2 ⟨fun m hm => ⟨named m hm, ih m hm⟩, rfl⟩

/-- A record in the form of an object gets one member more: one that stands for no field of it, or
null for a field that it does not give. -/
inductive Extends (ρ : Role) (g : Regime) : Nat → Json → Json → Prop
  | ignored {n : Nat} {pre post : List Member} {e : Ending} {key : Literal} {name : String}
      {v : Json} :
      key.read = .ok name → ρ.keyOf? ((Json.object (pre ++ post) e).variant? g) key = none →
      v.Ignorable (ρ.inside g) n →
      Extends ρ g (n + 1) (.object (pre ++ post) e) (.object (pre ++ (key, v) :: post) e)
  | absent {n : Nat} {pre post : List Member} {e : Ending} {key : Literal} {l : ρ.Key} :
      ρ.keyOf? ((Json.object (pre ++ post) e).variant? g) key = some l → ρ.isOption l →
      (∀ m ∈ pre ++ post,
        ρ.keyOf? ((Json.object (pre ++ post) e).variant? g) m.1 ≠ some l) →
      Extends ρ g (n + 1) (.object (pre ++ post) e) (.object (pre ++ (key, .null) :: post) e)

theorem Json.Ignorable.skip {g : Regime} {n : Nat} {v : Json} (h : v.Ignorable g n) :
    v.skip = .ok () := by
  cases g with
  | direct =>
    obtain ⟨cs, rest, h⟩ := h
    exact h.skip
  | kept => exact skip_of_check h.check

theorem Extends.standsFor {ρ : Role} {g : Regime} {n : Nat} {j k : Json}
    (h : Extends ρ g n j k) : StandsFor (.one ρ) g n j k := by
  cases h with
  | @ignored n pre post e key name v hname hother hv =>
    have read := (ρ.lawful g n).keeps_ignored hname hother hv.skip (by rintro rfl; exact hv.check)
    refine ⟨trivial, trivial, read, ?_⟩
    rintro rfl
    rw [ρ.inside_kept] at hv
    exact Json.keeps_check_insert hname hv.check
  | @absent n pre post e key l hl option missing =>
    have read := (ρ.lawful g n).keeps_absent hl option missing
    refine ⟨trivial, trivial, read, fun _ => ?_⟩
    obtain ⟨name, hname⟩ := Role.keyOf?_named hl
    exact Json.keeps_check_insert hname (by rw [Json.check])

abbrev Json.Extended : Json → Json → Prop :=
  Relation.ReflTransGen (Alters Extends (.one .reflection) .direct maxLevels)

theorem Json.Extended.keeps {j k : Json} (h : j.Extended k) :
    Keeps (Reflection.read .direct maxLevels j) (Reflection.read .direct maxLevels k) := by
  induction h with
  | refl => exact Keeps.refl _
  | tail _ last ih =>
    exact ih.trans (last.standsFor fun ρ g n j k h => h.standsFor).read

/-- An accepted text has a tree, and every text of an extension of this tree is read as the same
reflection. -/
theorem Reflection.ofText_extended (s : String) (r : Reflection)
    (hr : Reflection.ofText s = .ok r) :
    ∃ j : Json, j.SpelledBy s ∧ ∀ (k : Json) (s' : String), j.Extended k → k.SpelledBy s' →
      Reflection.ofText s' = .ok r := by
  obtain ⟨j, hj, hread⟩ := ofText_iff_spelled.1 hr
  refine ⟨j, hj, fun k s' h hk => ?_⟩
  exact ofText_iff_spelled.2 ⟨k, hk, h.keeps r hread⟩

def extendedText : String :=
  "\x7b\"x\":[\"\\ud800\",1e999],\"flags\":\x7b\"isRest\":null\x7d," ++
    "\"type\":\x7b\"x\":1,\"type\":\"a\"\x7d\x7d"

theorem Reflection.ofText_extended_flags :
    Reflection.ofText extendedText =
      .ok ⟨"", .project, some ⟨none, none, none, none, none, none, none, none⟩, none,
        some .other, none, [], [], [], [], []⟩ := by
  have accepted : Reflection.ofText
      "\x7b\"flags\":\x7b\x7d,\"type\":\x7b\"type\":\"a\"\x7d\x7d" =
      .ok ⟨"", .project, some ⟨none, none, none, none, none, none, none, none⟩, none,
        some .other, none, [], [], [], [], []⟩ := by decide +kernel
  obtain ⟨j, spelled, extended⟩ := Reflection.ofText_extended _ _ accepted
  have first : Json.SpelledBy (.object [(.ofText "flags", .object [] .closed),
      (.ofText "type", .object [(.ofText "type", .text (.ofText "a"))] .closed)] .closed)
      "\x7b\"flags\":\x7b\x7d,\"type\":\x7b\"type\":\"a\"\x7d\x7d" :=
    Json.spelledBy_iff.2 ⟨by decide +kernel, by decide +kernel⟩
  obtain rfl := spelled.unique first
  have second : Json.SpelledBy (.object [(.ofText "x", .list [.text ⟨[.unit 0xD800], .closed⟩,
          .number ⟨false, [1], [], some (false, [9, 9, 9])⟩] .closed),
        (.ofText "flags", .object [(.ofText "isRest", .null)] .closed),
        (.ofText "type", .object [(.ofText "x", .number ⟨false, [1], [], none⟩),
          (.ofText "type", .text (.ofText "a"))] .closed)] .closed) extendedText :=
    Json.spelledBy_iff.2 ⟨by decide +kernel, by decide +kernel⟩
  have null : Extends .flags .direct 126 (.object [] .closed)
      (.object [(.ofText "isRest", .null)] .closed) :=
    @Extends.absent .flags _ _ [] [] _ _ .isRest (by decide +kernel) rfl (by simp)
  have inside : Extends .type .direct 126
      (.object [(.ofText "type", .text (.ofText "a"))] .closed)
      (.object [(.ofText "x", .number ⟨false, [1], [], none⟩),
        (.ofText "type", .text (.ofText "a"))] .closed) := by
    have one : Json.Within 125 (.number ⟨false, [1], [], none⟩) :=
      @Json.Within.number _ _ (.integer 1) (by decide +kernel)
    exact @Extends.ignored .type _ _ [] _ _ _ "x" _ (by decide +kernel) (by decide +kernel) one
  obtain ⟨rest, unreadable, -⟩ : Json.SpelledBy (.list [.text ⟨[.unit 0xD800], .closed⟩,
      .number ⟨false, [1], [], some (false, [9, 9, 9])⟩] .closed) "[\"\\ud800\",1e999]" :=
    Json.spelledBy_iff.2 ⟨by decide +kernel, by decide +kernel⟩
  refine extended _ _
    (.head (@Alters.member _ .reflection _ _ _ _ _ [] _ _ .flags _ rfl rfl (.here null))
      (.head (@Alters.member _ .reflection _ _ _ _ _ [_] _ _ .type _ rfl rfl (.here inside))
        (.single (.here ?_)))) second
  exact @Extends.ignored .reflection _ _ [] _ _ (.ofText "x") "x" _ (by decide +kernel)
    (by decide +kernel) ⟨_, rest, unreadable⟩

end DocTree
