import DocTree.Proofs.Reflection.Places
import DocTree.Proofs.Reflection.Texts
import Mathlib.Control.Monad.Basic
import Mathlib.Logic.Relation

/-!
# Records as arrays

A record that gives all of its fields may be written as an object or as an array of the
values in declared order; a type starts with its variant then. Nothing in a graph depends
on which form a record has, neither the record itself nor what stands around it or inside
of it.
-/
namespace DocTree

open Json (Regime Member Literal Ending Labelled)

/-- An object that gives every field of a record once, in any order, and the array that does. -/
inductive ArrayForm (ρ : Role) (g : Regime) : Json → Json → Prop
  | intro {ms ns : List Member} {items : List Json} {e : Ending} :
      (∀ b, e ≠ .broken b) → ms.Perm ns →
      Labelled (ρ.keyOf? ((Json.list items e).variant? g))
        (ρ.keys ((Json.list items e).variant? g)) items ns →
      ArrayForm ρ g (.object ms e) (.list items e)

section Labelled

variable {κ : Type} {fieldOf? : Literal → Option κ} {ks : List κ} {items : List Json}
  {ns : List Member}

theorem Json.Labelled.values (h : Labelled fieldOf? ks items ns) : items = ns.map Prod.snd := by
  induction h with
  | nil => rfl
  | cons _ _ ih => rw [ih, List.map_cons]

theorem Json.Labelled.key (h : Labelled fieldOf? ks items ns) {m : Member} (hm : m ∈ ns) :
    ∃ k ∈ ks, fieldOf? m.1 = some k := by
  induction h with
  | nil => exact absurd hm List.not_mem_nil
  | @cons k ks j js key ms hkey _ ih =>
    rcases List.mem_cons.1 hm with rfl | hm
    · exact ⟨k, List.mem_cons_self, hkey⟩
    · obtain ⟨l, hl, hfield⟩ := ih hm
      exact ⟨l, List.mem_cons_of_mem _ hl, hfield⟩

end Labelled

section ArrayForm

variable {ρ : Role} {g : Regime} {n : Nat} {e : Ending} {items : List Json}
  {ns : List Member}

theorem Role.check_list_iff_object (e : Ending) {v : Option TypeTag}
    (h : Labelled (ρ.keyOf? v) (ρ.keys v) items ns) :
    (Json.list items e).check (n + 1) = .ok () ↔ (Json.object ns e).check (n + 1) = .ok () := by
  rw [Json.check_list_eq_ok, Json.check_object_eq_ok, h.values, List.forall_mem_map]
  refine and_congr_left fun _ => forall₂_congr fun m hm => ?_
  obtain ⟨l, -, hl⟩ := h.key hm
  exact (and_iff_right (Role.keyOf?_named hl)).symm

theorem ArrayForm.standsFor {j k : Json} (h : ArrayForm ρ g j k) :
    StandsFor (.one ρ) g n j k ∧ StandsFor (.one ρ) g n k j := by
  obtain @⟨ms, ns, items, e, closed, p, labelled⟩ := h
  cases n with
  | zero => exact ⟨.zero trivial trivial, .zero trivial trivial⟩
  | succ n =>
    have read := (ρ.lawful g n).list_iff_object closed labelled
    have check := Role.check_list_iff_object (n := n) e labelled
    constructor
    · refine ⟨trivial, trivial, fun a ha => ?_, fun _ _ checked => ?_⟩
      · exact (read a).2 ((ρ.lawful g n).keeps_perm p a ha)
      · exact check.2 (Json.keeps_check_perm p () checked)
    · refine ⟨trivial, trivial, fun a ha => ?_, fun _ _ checked => ?_⟩
      · exact (ρ.lawful g n).keeps_perm p.symm a ((read a).1 ha)
      · exact Json.keeps_check_perm p.symm () (check.1 checked)

end ArrayForm

section Symmetry

variable {ρ : Role} {g : Regime} {n : Nat} {e : Ending} {j k : Json}

theorem Role.keyOf?_replace {key : Literal} {pre post : List Member} {l : ρ.Key} {σ : Slot}
    (hl : ρ.keyOf? ((Json.object (pre ++ (key, j) :: post) e).variant? g) key = some l)
    (hσ : ρ.slot? l = some σ) :
    ρ.keyOf? ((Json.object (pre ++ (key, k) :: post) e).variant? g) key = some l := by
  cases ρ with
  | type =>
    have other : key.read.toOption ≠ some "type" := by
      intro named
      obtain rfl := Option.some.inj (hl.symm.trans (TypeTag.keyOf?_eq_variant.2 named))
      exact nomatch hσ
    simp only [Json.variant?, List.findSome?_append, List.findSome?_cons, if_neg other] at hl ⊢
    exact hl
  | _ => exact hl

theorem Role.keys_replace {pre post : List Json} {l : ρ.Key} {σ : Slot}
    (hl : (ρ.keys ((Json.list (pre ++ j :: post) e).variant? g))[pre.length]? = some l)
    (hσ : ρ.slot? l = some σ) :
    (ρ.keys ((Json.list (pre ++ k :: post) e).variant? g))[pre.length]? = some l := by
  cases ρ with
  | type =>
    cases pre with
    | nil =>
      -- the variant holds no record
      cases hv : (Json.list ([] ++ j :: post) e).variant? g with
      | none =>
        rw [hv] at hl
        exact nomatch hl
      | some t =>
        rw [hv] at hl
        obtain rfl := Option.some.inj hl
        exact nomatch hσ
    | cons x pre => exact hl
  | _ => exact hl

theorem Alters.symm {P : Role → Regime → Nat → Json → Json → Prop} {σ : Slot}
    (h : Alters P σ g n j k) : Alters (fun ρ g n j k => P ρ g n k j) σ g n k j := by
  induction h with
  | here h => exact .here h
  | entry _ ih => exact .entry ih
  | member hl hσ _ ih => exact .member (Role.keyOf?_replace hl hσ) hσ ih
  | item hl hσ _ ih => exact .item (Role.keys_replace hl hσ) hσ ih

end Symmetry

abbrev Json.Recast : Json → Json → Prop :=
  Relation.EqvGen (Alters (fun ρ g _ => ArrayForm ρ g) (.one .reflection) .direct Json.maxLevels)

theorem Json.Recast.read {j k : Json} (h : j.Recast k) (r : Reflection) :
    Reflection.read .direct maxLevels j = .ok r ↔ Reflection.read .direct maxLevels k = .ok r := by
  induction h with
  | rel j k h =>
    constructor
    · exact (h.standsFor fun _ _ _ _ _ form => form.standsFor.1).read r
    · exact (h.symm.standsFor fun _ _ _ _ _ form => form.standsFor.2).read r
  | refl => exact Iff.rfl
  | symm _ _ _ ih => exact ih.symm
  | trans _ _ _ _ _ ih₁ ih₂ => exact ih₁.trans ih₂

/-- A text is read alike whichever of its records are arrays. -/
theorem Reflection.ofText_recast (s s' : String) (h : Json.TextsOf Json.Recast s s')
    (r : Reflection) : Reflection.ofText s = .ok r ↔ Reflection.ofText s' = .ok r := by
  obtain ⟨j, k, hs, hs', h⟩ := h
  rw [ofText_spelled hs, ofText_spelled hs', h.read r]

theorem Reflection.ofText_recast_elementType :
    Reflection.ofText "\x7b\"type\":[\"array\",[\"unknown\",\"x\"]]\x7d" =
      .ok ⟨"", .project, none, none, some (.array (.unknown "x")), none, [], [], [], [], []⟩ := by
  refine (Reflection.ofText_recast
    ("\x7b\"type\":\x7b\"elementType\":\x7b\"type\":\"unknown\",\"name\":\"x\"\x7d," ++
      "\"type\":\"array\"\x7d\x7d") _ ?_ _).1 (by decide +kernel)
  have first : Json.SpelledBy (.object [(.ofText "type", .object [(.ofText "elementType", .object
        [(.ofText "type", .text (.ofText "unknown")), (.ofText "name", .text (.ofText "x"))]
        .closed), (.ofText "type", .text (.ofText "array"))] .closed)] .closed)
      ("\x7b\"type\":\x7b\"elementType\":\x7b\"type\":\"unknown\",\"name\":\"x\"\x7d," ++
        "\"type\":\"array\"\x7d\x7d") := Json.spelledBy_iff.2 ⟨by decide +kernel, by decide +kernel⟩
  have second : Json.SpelledBy (.object [(.ofText "type", .list [.text (.ofText "array"), .list
        [.text (.ofText "unknown"), .text (.ofText "x")] .closed] .closed)] .closed)
      "\x7b\"type\":[\"array\",[\"unknown\",\"x\"]]\x7d" := 
    Json.spelledBy_iff.2 ⟨by decide +kernel, by decide +kernel⟩
  have inside : ArrayForm .type .kept
      (.object [(.ofText "type", .text (.ofText "unknown")), (.ofText "name", .text (.ofText "x"))]
        .closed) (.list [.text (.ofText "unknown"), .text (.ofText "x")] .closed) := by
    have variant : (Json.list [.text (.ofText "unknown"), .text (.ofText "x")] .closed).variant?
        .kept = some .unknown := by decide +kernel
    refine .intro (by simp) (.refl _) ?_
    rw [variant]
    exact .cons rfl (.cons rfl .nil)
  have around : ArrayForm .type .direct
      (.object [(.ofText "elementType", .list [.text (.ofText "unknown"), .text (.ofText "x")]
        .closed), (.ofText "type", .text (.ofText "array"))] .closed)
      (.list [.text (.ofText "array"), .list [.text (.ofText "unknown"), .text (.ofText "x")]
        .closed] .closed) := by
    have variant : (Json.list [.text (.ofText "array"), .list [.text (.ofText "unknown"),
        .text (.ofText "x")] .closed] .closed).variant? .direct = some .array := by decide +kernel
    refine .intro (by simp) (.swap _ _ _) ?_
    rw [variant]
    exact .cons rfl (.cons rfl .nil)
  have element : Alters (fun ρ g _ => ArrayForm ρ g) (.one .type) .direct 126 _ _ :=
    @Alters.member _ .type _ _ _ _ (.ofText "elementType") []
      [(.ofText "type", .text (.ofText "array"))] .closed (some .elementType) _
      (by decide +kernel) rfl (.here inside)
  refine ⟨_, _, first, second, .trans _ _ _
    (.rel _ _ (@Alters.member _ .reflection _ _ _ _ _ [] _ _ .type _ rfl rfl element))
    (.rel _ _ (@Alters.member _ .reflection _ _ _ _ _ [] _ _ .type _ rfl rfl ?_))⟩
  exact .here around

end DocTree
