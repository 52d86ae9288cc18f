import DocTree.Proofs.Reflection.Places
import DocTree.Proofs.Reflection.Texts
import Mathlib.Control.Monad.Basic
import Mathlib.Logic.Relation

/-!
# The order of members

The members of any object in the text of a graph may change places: the text is accepted
as before, with the same reflection. So a field given twice can not be settled by which
comes first; a graph in which a record gives a field twice is refused.
-/
namespace DocTree

open Json (Regime Member Literal Ending Keeps)

inductive Json.Reorders : Json → Json → Prop
  | here {ms ns : List Member} {e : Ending} : ms.Perm ns → Reorders (.object ms e) (.object ns e)
  | item {j k : Json} {pre post : List Json} {e : Ending} :
      Reorders j k → Reorders (.list (pre ++ j :: post) e) (.list (pre ++ k :: post) e)
  | member {j k : Json} {key : Literal} {pre post : List Member} {e : Ending} :
      Reorders j k →
      Reorders (.object (pre ++ (key, j) :: post) e) (.object (pre ++ (key, k) :: post) e)

theorem Json.Reorders.symm {j k : Json} (h : j.Reorders k) : k.Reorders j := by
  induction h with
  | here p => exact .here p.symm
  | item _ ih => exact .item ih
  | member _ ih => exact .member ih

structure Json.StandsAnywhereFor (j k : Json) : Prop where
  old : j.IsContainer
  new : k.IsContainer
  skip : Keeps j.skip k.skip
  check : ∀ n, Keeps (j.check n) (k.check n)
  read : ∀ (σ : Slot) g n, Keeps (σ.read g n j) (σ.read g n k)

theorem Json.StandsAnywhereFor.of_succ {j k : Json} (old : j.IsContainer) (new : k.IsContainer)
    (skip : Keeps j.skip k.skip) (check : ∀ n, Keeps (j.check (n + 1)) (k.check (n + 1)))
    (read : ∀ (σ : Slot) g n, Keeps (σ.read g (n + 1) j) (σ.read g (n + 1) k)) :
    j.StandsAnywhereFor k := by
  refine ⟨old, new, skip, fun n => ?_, fun σ g n => ?_⟩
  · cases n with
    | zero => exact keeps_check_zero old k
    | succ n => exact check n
  · cases n with
    | zero => exact Slot.keeps_zero old k
    | succ n => exact read σ g n

theorem Json.Reorders.standsAnywhereFor {j k : Json} (h : j.Reorders k) :
    j.StandsAnywhereFor k := by
  induction h with
  | here p =>
    refine .of_succ trivial trivial (keeps_skip_perm p) (fun n => keeps_check_perm p) ?_
    intro σ g n
    cases σ with
    | many ρ => exact keeps_error _ _
    | one ρ => exact (ρ.lawful g n).keeps_perm p
  | item _ ih =>
    refine .of_succ trivial trivial (keeps_skip_item ih.skip)
      (fun n => keeps_check_item (ih.check n)) ?_
    intro σ g n
    cases σ with
    | many ρ => exact Slot.keeps_entry (ih.read (.one ρ) g n)
    | one ρ =>
      exact (ρ.lawful g n).keeps_item ih.old ih.new (fun _ => ih.check n)
        fun _ σ _ _ => ih.read σ _ n
  | member _ ih =>
    refine .of_succ trivial trivial (keeps_skip_member ih.skip)
      (fun n => keeps_check_member (ih.check n)) ?_
    intro σ g n
    cases σ with
    | many ρ => exact keeps_error _ _
    | one ρ =>
      exact (ρ.lawful g n).keeps_member ih.old ih.new (fun _ => ih.skip) (fun _ => ih.check n)
        fun _ σ _ _ => ih.read σ _ n

/-- A record in the form of an object has two members that stand for the same field. -/
inductive RepeatsField (ρ : Role) (g : Regime) : Json → Prop
  | intro {m m' : Member} {ms rest : List Member} {e : Ending} {l : ρ.Key} :
      ms.Perm (m :: m' :: rest) →
      ρ.keyOf? ((Json.object ms e).variant? g) m.1 = some l →
      ρ.keyOf? ((Json.object ms e).variant? g) m'.1 = some l → RepeatsField ρ g (.object ms e)

theorem RepeatsField.refused {ρ : Role} {g : Regime} {n : Nat} {j : Json}
    (h : RepeatsField ρ g j) (a : ρ.Value) : ρ.read g n j ≠ .ok a := by
  intro ha
  obtain @⟨m, m', ms, rest, e, l, p, hm, hm'⟩ := h
  cases n with
  | zero =>
    obtain ⟨fault, refused⟩ := (Slot.one ρ).read_zero (g := g) (j := .object ms e) trivial
    exact nomatch refused.symm.trans ha
  | succ n => exact (ρ.lawful g n).not_repeated p hm hm' a ha

abbrev Json.Reordered : Json → Json → Prop := Relation.ReflTransGen Json.Reorders

theorem Json.Reordered.symm {j k : Json} (h : j.Reordered k) : k.Reordered j := by
  induction h with
  | refl => exact .refl
  | tail _ last ih => exact .head last.symm ih

theorem Json.Reordered.keeps {j k : Json} (h : j.Reordered k) (n : Nat) :
    Keeps (Reflection.read .direct n j) (Reflection.read .direct n k) := by
  induction h with
  | refl => exact Keeps.refl _
  | tail _ last ih => exact ih.trans (last.standsAnywhereFor.read (.one .reflection) .direct n)

/-- Texts that differ in the order of members are accepted alike, and a text in which a record
gives a field twice is refused. -/
theorem Reflection.ofText_reordered :
    (∀ s s' : String, Json.TextsOf Json.Reordered s s' →
      ∀ r, Reflection.ofText s = .ok r ↔ Reflection.ofText s' = .ok r) ∧
    (∀ (s : String) (j : Json), j.SpelledBy s →
      HasRecord RepeatsField (.one .reflection) .direct Json.maxLevels j →
      ∀ r, Reflection.ofText s ≠ .ok r) := by
  constructor
  · rintro s s' ⟨j, k, hs, hs', h⟩ r
    rw [ofText_spelled hs, ofText_spelled hs']
    exact ⟨h.keeps _ r, h.symm.keeps _ r⟩
  · intro s j hs h r hr
    refine HasRecord.refused ?_ (fun ρ g n j hj => hj.refused) h r ((ofText_spelled hs r).1 hr)
    rintro ρ g j ⟨⟩
    trivial

theorem Reflection.ofText_reordered_variant :
    (∀ r, Reflection.ofText
        "\x7b\"name\":\"m\",\"type\":\x7b\"type\":\"union\",\"types\":[]\x7d\x7d" = .ok r ↔
      Reflection.ofText
        "\x7b\"type\":\x7b\"types\":[],\"type\":\"union\"\x7d,\"name\":\"m\"\x7d" = .ok r) ∧
    (∀ r, Reflection.ofText
        "\x7b\"comment\":\x7b\"tags\":[\x7b\"tag\":\"a\",\"tagName\":\"a\"\x7d]\x7d\x7d" ≠
      .ok r) := by
  constructor
  · apply Reflection.ofText_reordered.1
    have first : Json.SpelledBy (.object [(.ofText "name", .text (.ofText "m")),
        (.ofText "type", .object [(.ofText "type", .text (.ofText "union")),
          (.ofText "types", .list [] .closed)] .closed)] .closed)
        "\x7b\"name\":\"m\",\"type\":\x7b\"type\":\"union\",\"types\":[]\x7d\x7d" :=
      Json.spelledBy_iff.2 ⟨by decide +kernel, by decide +kernel⟩
    have second : Json.SpelledBy (.object [(.ofText "type", .object
          [(.ofText "types", .list [] .closed), (.ofText "type", .text (.ofText "union"))]
          .closed), (.ofText "name", .text (.ofText "m"))] .closed)
        "\x7b\"type\":\x7b\"types\":[],\"type\":\"union\"\x7d,\"name\":\"m\"\x7d" :=
      Json.spelledBy_iff.2 ⟨by decide +kernel, by decide +kernel⟩
    refine ⟨_, _, first, second, .tail (.single (.here (.swap _ _ _))) ?_⟩
    exact @Json.Reorders.member _ _ _ [] _ _ (.here (.swap _ _ _))
  · have text : Json.SpelledBy (.object [(.ofText "comment", .object [(.ofText "tags", .list
          [.object [(.ofText "tag", .text (.ofText "a")), (.ofText "tagName", .text (.ofText "a"))]
          .closed] .closed)] .closed)] .closed)
        "\x7b\"comment\":\x7b\"tags\":[\x7b\"tag\":\"a\",\"tagName\":\"a\"\x7d]\x7d\x7d" :=
      Json.spelledBy_iff.2 ⟨by decide +kernel, by decide +kernel⟩
    apply Reflection.ofText_reordered.2 _ _ text
    refine @Alters.member _ .reflection _ _ _ _ _ [] _ _ .comment _ rfl rfl ?_
    refine @Alters.member _ .comment _ _ _ _ _ [] _ _ .tags _ rfl rfl ?_
    refine @Alters.entry _ _ _ _ _ _ [] _ _ (.here ⟨rfl, ?_⟩)
    exact @RepeatsField.intro .tag _ _ _ _ _ _ .name (.refl _) rfl rfl

end DocTree
