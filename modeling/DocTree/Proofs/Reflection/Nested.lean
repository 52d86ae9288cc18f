import DocTree.Proofs.Reflection.Levels
import DocTree.Proofs.Reflection.Places
import DocTree.Proofs.Reflection.Texts
import Mathlib.Control.Monad.Basic

/-!
# Types inside of types

The type of a reflection is read straight from the text, a type inside of a type from what
was kept. The two readers differ in how the variant may be named: only what was kept may name
it by a number. A value that is accepted directly is therefore accepted as the same type at
every nested position that leaves it the levels it takes, and may stand wherever this type
stands.
-/
namespace DocTree

open Json (Regime Fault Member Ending Keeps bind_eq_ok readOption)

theorem TypeTag.kept_of_direct (j : Json) :
    Keeps (TypeTag.read .direct j) (TypeTag.read .kept j) := by
  intro t h
  cases j with
  | number d =>
    obtain ⟨v, hv, h⟩ := bind_eq_ok.1 h
    cases h
  | _ => exact h

theorem TypeTag.direct_of_kept {j : Json} (h : ∀ d, j ≠ .number d) :
    Keeps (TypeTag.read .kept j) (TypeTag.read .direct j) := by
  cases j with
  | number d => exact absurd rfl (h d)
  | _ => exact Keeps.refl _

theorem TypeTag.index_of_number {d : Json.Numeral} {t : TypeTag}
    (h : TypeTag.read .kept (.number d) = .ok t) :
    ∃ i : Int, d.value = .ok (.integer i) ∧ 0 ≤ i := by
  obtain ⟨v, hv, h⟩ := bind_eq_ok.1 h
  cases v with
  | integer i =>
    by_cases index : 0 ≤ i
    · exact ⟨i, hv, index⟩
    · simp [index] at h
  | float => cases h

section Types

variable {g : Regime} {n m : Nat} {j : Json} {t : TypeExpr}

theorem TypeTag.tag?_of_readMembers {ms : List Member} {e : Ending} {tag : TypeTag}
    (h : TypeTag.readMembers g n none ms = .ok (some tag)) :
    ∃ x, (Json.object ms e).tag? = some x ∧ TypeTag.read g x = .ok tag := by
  rw [readMembers_eq_foldlM] at h
  induction ms with
  | nil => cases h
  | cons x ms ih =>
    rw [List.foldlM_cons, bind_eq_ok] at h
    obtain ⟨tag₁, first, rest⟩ := h
    obtain ⟨name, hname, ⟨rfl, -, t, ht, rfl⟩ | ⟨other, -, rfl⟩⟩ := readMember_eq_ok.1 first
    · rw [← readMembers_eq_foldlM] at rest
      have same : some tag = some t := readMembers_tag e rest
      exact ⟨x.2, Json.tag?_here hname, Option.some.inj same ▸ ht⟩
    · rw [Json.tag?_behind hname other]
      exact ih rest

theorem TypeExpr.tag?_of_read (h : TypeExpr.read g n j = .ok t) :
    ∃ x tag, j.tag? = some x ∧ TypeTag.read g x = .ok tag := by
  cases n with
  | zero => exact absurd h (tooDeep_ne_ok _ j t)
  | succ n =>
    have container := isContainer_of_read h
    cases j with
    | list items e =>
      obtain ⟨x, rest, tag, rfl, hx, -⟩ := read_list_eq_ok.1 h
      exact ⟨x, tag, rfl, hx⟩
    | object ms e =>
      obtain ⟨tag, members, -⟩ := read_object_eq_ok.1 h
      obtain ⟨x, found, hx⟩ := TypeTag.tag?_of_readMembers members
      exact ⟨x, tag, found, hx⟩
    | _ => exact container.elim

theorem TypeExpr.read_of_direct (h : TypeExpr.read .direct n j = .ok t) (hm : j.depth ≤ m) :
    TypeExpr.read g m j = .ok t := by
  have direct := (readers_levelled n).2 .direct m j hm t h
  cases g with
  | direct => exact direct
  | kept =>
    cases m with
    | zero => exact absurd direct (tooDeep_ne_ok _ j t)
    | succ m =>
      exact keeps_read (fun x _ => TypeTag.kept_of_direct x) (fun _ _ => Keeps.refl _)
        (fun _ _ _ => Keeps.refl _) t direct

theorem TypeExpr.direct_of_kept (htag : ∀ d, j.tag? ≠ some (.number d))
    (h : TypeExpr.read .kept n j = .ok t) (hm : j.depth ≤ m) :
    TypeExpr.read .direct m j = .ok t := by
  have kept := (readers_levelled n).2 .kept m j hm t h
  cases m with
  | zero => exact absurd kept (tooDeep_ne_ok _ j t)
  | succ m =>
    refine keeps_read (fun x hx => TypeTag.direct_of_kept ?_) (fun _ _ => Keeps.refl _)
      (fun _ _ _ => Keeps.refl _) t kept
    rintro d rfl
    exact htag d hx

theorem TypeExpr.index_of_kept (h : TypeExpr.read .kept n j = .ok t) (hm : j.depth ≤ m)
    (refused : ∀ u, TypeExpr.read .direct m j ≠ .ok u) :
    ∃ (d : Json.Numeral) (i : Int), j.tag? = some (.number d) ∧ d.value = .ok (.integer i) ∧
      0 ≤ i := by
  by_cases htag : ∃ d, j.tag? = some (.number d)
  · obtain ⟨d, hd⟩ := htag
    obtain ⟨x, tag, found, hx⟩ := tag?_of_read h
    obtain rfl := Option.some.inj (hd.symm.trans found)
    obtain ⟨i, value, index⟩ := TypeTag.index_of_number hx
    exact ⟨d, i, hd, value, index⟩
  · exact absurd (direct_of_kept (not_exists.1 htag) h hm) (refused t)

end Types

/-- Where one type stands inside of another one or of an inline declaration. The entries are those
of the lists `typeArguments`, `types` and `elements`. -/
inductive NestedPosition where
  | element
  | target
  | entry (pre post : List Json) (e : Ending)
  | declared

namespace NestedPosition

def read (n : Nat) (v : Json) : NestedPosition → Except Fault (Option TypeExpr)
  | element => (TypeExpr.readField n .elementType v).map some
  | target => (TypeExpr.readField n .target v).map some
  | entry pre post e => (TypeExpr.readAll (n + 1) (.list (pre ++ v :: post) e)).map (·[pre.length]?)
  | declared => Reflection.readField .kept n .type v

def Open (n : Nat) : NestedPosition → Prop
  | entry pre post e =>
      (∀ w ∈ pre ++ post, ∃ t, TypeExpr.read .kept n w = .ok t) ∧ e.check .decoding = .ok ()
  | _ => True

variable {n : Nat} {v : Json} {t : TypeExpr} {p : NestedPosition}

theorem kept_of_read (h : p.read n v = .ok (some t)) :
    TypeExpr.read .kept n v = .ok t := by
  cases p with
  | element | target =>
    obtain ⟨u, hu, same⟩ := Json.map_eq_ok.1 h
    exact Option.some.inj same ▸ hu
  | entry pre post e =>
    obtain ⟨ts, hts, found⟩ := Json.map_eq_ok.1 h
    rw [TypeExpr.readAll_eq] at hts
    obtain ⟨us, hus, hts⟩ := bind_eq_ok.1 hts
    obtain ⟨_, -, same⟩ := bind_eq_ok.1 hts
    obtain rfl := Except.ok.inj same
    obtain ⟨as, u, bs, has, hu, -, rfl⟩ := Json.mapM_middle_eq_ok.1 hus
    rw [← Json.length_of_mapM_eq_ok has, List.getElem?_append_right (Nat.le_refl _),
      Nat.sub_self] at found
    exact Option.some.inj found ▸ hu
  | declared => exact (readOption_eq_some.1 h).2

theorem read_of_kept (hv : v ≠ .null) (hp : p.Open n) (h : TypeExpr.read .kept n v = .ok t) :
    p.read n v = .ok (some t) := by
  cases p with
  | element | target => exact Json.map_eq_ok.2 ⟨t, h, rfl⟩
  | entry pre post e =>
    obtain ⟨others, ending⟩ := hp
    obtain ⟨before, behind⟩ := List.forall_mem_append.1 others
    obtain ⟨as, has⟩ := Json.exists_mapM_eq_ok before
    obtain ⟨bs, hbs⟩ := Json.exists_mapM_eq_ok behind
    refine Json.map_eq_ok.2 ⟨as ++ t :: bs, ?_, ?_⟩
    · rw [TypeExpr.readAll_eq]
      exact bind_eq_ok.2 ⟨_, Json.mapM_middle_eq_ok.2 ⟨as, t, bs, has, h, hbs, rfl⟩,
        bind_eq_ok.2 ⟨(), ending, rfl⟩⟩
    · rw [← Json.length_of_mapM_eq_ok has]
      simp
  | declared => exact readOption_eq_some.2 ⟨hv, h⟩

end NestedPosition

/-- A type that is read as `t` gives place to `v`, which has the levels it takes there. -/
inductive Retypes (v : Json) (t : TypeExpr) : Role → Regime → Nat → Json → Json → Prop
  | intro {g : Regime} {n : Nat} {w : Json} :
      TypeExpr.read g n w = .ok t → v.depth ≤ n → Retypes v t .type g n w v

theorem Retypes.standsFor {v : Json} {t : TypeExpr}
    (anywhere : ∀ g n, v.depth ≤ n → TypeExpr.read g n v = .ok t) {ρ : Role} {g : Regime} {n : Nat}
    {j k : Json} (h : Retypes v t ρ g n j k) : StandsFor (.one ρ) g n j k := by
  obtain ⟨hw, hn⟩ := h
  have read := anywhere g n hn
  refine ⟨TypeExpr.isContainer_of_read hw, TypeExpr.isContainer_of_read read, ?_, ?_⟩
  · intro u hu
    obtain rfl := Except.ok.inj (hw.symm.trans hu)
    exact read
  · exact fun _ _ _ => TypeExpr.check_of_read read

/-- A value that is accepted as the type of a reflection means the same at all nested positions and
may stand in every text for a type read as the same. One that only a nested position accepts names
its variant by an index. -/
theorem TypeExpr.direct_means_nested (v : Json) (hv : v ≠ .null) :
    (∀ n t, Reflection.readField .direct n .type v = .ok (some t) →
      (∀ (p : NestedPosition) m, v.depth ≤ m → p.Open m → p.read m v = .ok (some t)) ∧
      ∀ s s' r,
        Json.TextsOf (Alters (Retypes v t) (.one .reflection) .direct Json.maxLevels) s s' →
        Reflection.ofText s = .ok r → Reflection.ofText s' = .ok r) ∧
    ∀ (p : NestedPosition) m n t, p.read m v = .ok (some t) → v.depth ≤ n →
      (∃ fault, Reflection.readField .direct n .type v = .error fault) →
      ∃ (d : Json.Numeral) (i : Int), v.tag? = some (.number d) ∧ d.value = .ok (.integer i) ∧
        0 ≤ i := by
  constructor
  · intro n t h
    have anywhere (g : Regime) (m : Nat) (hm : v.depth ≤ m) : TypeExpr.read g m v = .ok t :=
      read_of_direct (readOption_eq_some.1 h).2 hm
    refine ⟨fun p m hm hp => p.read_of_kept hv hp (anywhere .kept m hm), ?_⟩
    rintro s s' r ⟨j, k, hs, hs', alters⟩ hr
    have stands := alters.standsFor fun ρ g n j k h => Retypes.standsFor anywhere h
    exact (Reflection.ofText_spelled hs' r).2
      (stands.read r ((Reflection.ofText_spelled hs r).1 hr))
  · rintro p m n t h hn ⟨fault, refused⟩
    refine index_of_kept (p.kept_of_read h) hn fun u hu => ?_
    have accepted := readOption_eq_some.2 ⟨hv, hu⟩
    exact nomatch refused.symm.trans accepted

theorem TypeExpr.direct_means_nested_unknown :
    Reflection.ofText "\x7b\"type\":[\"array\",[\"unknown\",\"x\"]]\x7d" =
        .ok ⟨"", .project, none, none, some (.array (.unknown "x")), none, [], [], [], [], []⟩ ∧
      ∃ (d : Json.Numeral) (i : Int), (Json.list [.number ⟨false, [1, 0], [], none⟩,
        .text (.ofText "x")] .closed).tag? = some (.number d) ∧ d.value = .ok (.integer i) ∧
          0 ≤ i := by
  constructor
  · have object : Json.SpelledBy (.object [(.ofText "type", .list [.text (.ofText "array"), .object
        [(.ofText "type", .text (.ofText "unknown")), (.ofText "name", .text (.ofText "x"))]
        .closed] .closed)] .closed)
        "\x7b\"type\":[\"array\",\x7b\"type\":\"unknown\",\"name\":\"x\"\x7d]\x7d" :=
      Json.spelledBy_iff.2 ⟨by decide +kernel, by decide +kernel⟩
    have array : Json.SpelledBy (.object [(.ofText "type", .list [.text (.ofText "array"), .list
        [.text (.ofText "unknown"), .text (.ofText "x")] .closed] .closed)] .closed)
        "\x7b\"type\":[\"array\",[\"unknown\",\"x\"]]\x7d" :=
      Json.spelledBy_iff.2 ⟨by decide +kernel, by decide +kernel⟩
    obtain ⟨direct, -⟩ := TypeExpr.direct_means_nested
      (.list [.text (.ofText "unknown"), .text (.ofText "x")] .closed) (by simp)
    refine (direct 1 (.unknown "x") (by decide +kernel)).2 _ _ _ ⟨_, _, object, array, ?_⟩
      (by decide +kernel)
    refine @Alters.member _ .reflection _ _ _ _ _ [] _ _ .type _ rfl rfl ?_
    refine @Alters.item _ .type _ _ _ _ [_] _ _ (some .elementType) _ rfl rfl ?_
    exact .here (.intro (by decide +kernel) (by decide))
  · obtain ⟨-, indexed⟩ := TypeExpr.direct_means_nested
      (.list [.number ⟨false, [1, 0], [], none⟩, .text (.ofText "x")] .closed) (by simp)
    refine indexed .element 1 1 (.unknown "x") (by decide +kernel) (by decide) ?_
    exact ⟨.invalidType (.integer 10) "variant identifier", by decide +kernel⟩

end DocTree
