import DocTree.Proofs.Reflection.Places
import DocTree.Proofs.Reflection.Standing
import Mathlib.Data.Rat.Cast.Order
import Mathlib.Tactic.NormNum.Basic

/-!
# Queries by kind

The kind of a record is the number that its text gives for it, or zero. Only whole numbers of 32
bits are accepted, and each is a kind of its own. So a query for the kind of a number finds the
nodes with that number in the text and no others, in the order in which they begin.
-/
namespace DocTree

open Json (Regime Fault Placed Taken bind_eq_ok readWord)

namespace Json

def Numeral.toRat (n : Numeral) : ℚ :=
  let size : ℚ := valueOfDigits (n.whole ++ n.fraction) / 10 ^ n.fraction.length
  let scale : ℚ :=
    match n.exponent with
    | none => 1
    | some (true, ds) => 1 / 10 ^ valueOfDigits ds
    | some (false, ds) => 10 ^ valueOfDigits ds
  if n.negative then -(size * scale) else size * scale

theorem Numeral.toRat_of_toInteger? {n : Numeral} {i : Int} (h : n.toInteger? = some i) :
    n.toRat = i := by
  obtain ⟨negative, whole, fraction, exponent⟩ := n
  have integer : fraction = [] ∧ exponent = none := by
    by_contra other
    have fractional : Numeral.isInteger ⟨negative, whole, fraction, exponent⟩ = false := by
      simpa [isInteger, Option.isSome_iff_ne_none] using other
    simp [toInteger?, fractional] at h
  obtain ⟨rfl, rfl⟩ := integer
  cases negative with
  | true =>
    have value : -(valueOfDigits whole : Int) = i := by
      simp only [toInteger?, isInteger] at h
      simpa using (Option.ite_none_right_eq_some.1 h).2
    simp [toRat, ← value]
  | false =>
    have value : (valueOfDigits whole : Int) = i := by
      simp only [toInteger?, isInteger] at h
      simpa using (Option.ite_none_right_eq_some.1 h).2
    simp [toRat, ← value]

theorem Numeral.toInteger?_of_value {n : Numeral} {i : Int} (h : n.value = .ok (.integer i)) :
    n.toInteger? = some i := by
  rw [value] at h
  split at h
  · rename_i integer
    cases h
    exact integer
  · split at h <;> cases h

theorem toRat_of_readWord {j : Json} {w : UInt32} (h : readWord j = .ok w) :
    ∃ n, j = .number n ∧ n.toRat = w.toNat := by
  cases j with
  | number n =>
    obtain ⟨v, hv, h⟩ := bind_eq_ok.1 h
    cases v with
    | integer i =>
      dsimp only at h
      split at h
      · rename_i range
        obtain rfl := Except.ok.inj h
        have word : (i.toNat.toUInt32.toNat : Int) = i := by
          have small : i.toNat < UInt32.size := by
            rw [UInt32.size]
            omega
          rw [Nat.toUInt32_eq, UInt32.toNat_ofNat_of_lt' small]
          omega
        refine ⟨n, rfl, ?_⟩
        rw [Numeral.toRat_of_toInteger? (Numeral.toInteger?_of_value hv)]
        exact_mod_cast word.symm
      · cases h
    | float negative x => cases h
  | _ =>
    unfold readWord at h
    exact absurd h (mismatch_ne_ok "u32" _ w)

end Json

namespace Reflection

inductive KindIs (record : Json) : ℚ → Prop
  | given {i : Nat} {n : Json.Numeral} :
      (shape.given record)[i]? = some (some .kind, .number n) → KindIs record n.toRat
  | absent : record.IsContainer →
      (∀ (i : Nat) (j : Json), (shape.given record)[i]? ≠ some (some .kind, j)) → KindIs record 0

theorem KindIs.isContainer {record : Json} {q : ℚ} (h : KindIs record q) :
    record.IsContainer := by
  cases h with
  | given found =>
    cases record with
    | list | object => trivial
    | _ => cases found
  | absent container => exact container

theorem kind_of_read {g : Regime} {n : Nat} {record : Json} {r : Reflection}
    (h : Reflection.read g n record = .ok r) :
    r.kind.Canonical ∧ ∀ q, KindIs record q ↔ q = r.kind.bits.toNat := by
  have container := isContainer_of_read h
  cases n with
  | zero => exact absurd h (tooDeep_ne_ok _ _ r)
  | succ n =>
    rw [read_succ] at h
    obtain ⟨f, taken, built⟩ := Json.taken_of_readRecord (by decide) h
    have kind_eq : r.kind = (f .kind).getD .project := by rw [← Except.ok.inj built]
    have kind := taken .kind
    rw [kind_eq]
    generalize f .kind = o at kind
    cases kind with
    | absent none =>
      refine ⟨by decide, fun q => ⟨fun hq => ?_, ?_⟩⟩
      · cases hq with
        | given found => exact absurd found (none _ _)
        | absent => rfl
      · rintro rfl
        exact .absent container none
    | @present i j kind found only hread =>
      obtain ⟨w, hw, rfl⟩ := Json.map_eq_ok.1 hread
      obtain ⟨d, rfl, value⟩ := Json.toRat_of_readWord hw
      refine ⟨Kind.ofBits_canonical w, fun q => ?_⟩
      rw [Option.getD_some, Kind.bits_ofBits, ← value]
      constructor
      · intro hq
        cases hq with
        | given found' =>
          obtain rfl := only _ _ found'
          have same := found.symm.trans found'
          cases same
          rfl
        | absent _ none => exact absurd found (none _ _)
      · rintro rfl
        exact .given found

theorem kind_eq_iff {k : Kind} (h : k.Canonical) (bits : UInt32) :
    k = .ofBits bits ↔ k.bits = bits := by
  constructor
  · rintro rfl
    exact Kind.bits_ofBits bits
  · rintro rfl
    exact h.symm

theorem located_children (r : Reflection) :
    (r.located.filter fun x => x.1.length = 1).map Prod.snd = r.children := by
  have from_child (i : Nat) (rs : List Reflection) :
      ((locatedFrom i rs).filter fun x => x.1.length = 1).map Prod.snd = rs := by
    induction rs generalizing i with
    | nil => rfl
    | cons r rs ih =>
      have deeper :
          (r.located.map (Prod.map (i :: ·) id)).filter (fun x => x.1.length = 1) = [] := by
        rw [List.filter_eq_nil_iff]
        intro x hx
        obtain ⟨⟨p, d⟩, hp, rfl⟩ := List.mem_map.1 hx
        have some_step := (r.mem_located.1 hp).1
        simpa using some_step
      rw [locatedFrom, List.cons_append, List.filter_cons_of_pos (by simp), List.filter_append,
        deeper, List.nil_append, List.map_cons, ih]
  cases r with
  | mk name kind flags comment type value sources signatures parameters children typeParameters =>
    rw [located]
    exact from_child 0 children

structure Site where
  address : List Nat
  start : Nat
  record : Json
  number : UInt32
  value : Reflection

/-- The sites are all nodes below the root in the graph of a text, in the order in which their
texts begin, each with the number that the text gives as its kind. -/
structure Lists (s : String) (sites : List Site) : Prop where
  complete : ∀ address start record,
    (∃ x ∈ sites, x.address = address ∧ x.start = start ∧ x.record = record) ↔
      address ≠ [] ∧ Stands s address start record
  ordered : sites.Pairwise (·.start < ·.start)
  numbered : ∀ x ∈ sites, ∀ q, KindIs x.record q ↔ q = x.number.toNat

structure AnsweredBy (r : Reflection) (sites : List Site) : Prop where
  value : ∀ x ∈ sites, r.at? x.address = some x.value
  descendants : ∀ k : UInt32,
    r.descendantsOfKind (.ofBits k) = (sites.filter fun x => x.number = k).map Site.value
  children : ∀ k : UInt32, r.childrenOfKind (.ofBits k) =
    (sites.filter fun x => x.number = k ∧ x.address.length = 1).map Site.value

structure Site.Of (root : Placed) (s : String) (x : List Nat × Reflection) (site : Site) :
    Prop where
  address : site.address = x.1
  number : site.number = x.2.kind.bits
  value : site.value = x.2
  stands : ∃ node before, NodeAt root x.1 node ∧ ReadAs node x.2 ∧ node.value = site.record ∧
    s.toList = before ++ node.text ∧ before.length = site.start

section Sites

variable {root : Placed} {s : String} {r : Reflection} {x y : List Nat × Reflection}
  {site site' : Site}

theorem Site.exists_of (fills : Fills root s) (read : ReadAs root r) (hx : x ∈ r.located) :
    ∃ site, Site.Of root s x site := by
  obtain ⟨node, hnode, hread⟩ := read.exists_node (r.mem_located.1 hx).2
  obtain ⟨before, text⟩ := fills.exists_before hnode
  exact ⟨⟨x.1, before.length, node.value, x.2.kind.bits, x.2⟩, rfl, rfl, rfl, node, before, hnode,
    hread, rfl, text, rfl⟩

theorem Site.Of.unique (read : ReadAs root r) (h : Site.Of root s x site) {node : Placed}
    {before : List Char} (hnode : NodeAt root x.1 node) (text : s.toList = before ++ node.text) :
    site.record = node.value ∧ site.start = before.length := by
  obtain ⟨node', before', hnode', -, record, text', start⟩ := h.stands
  obtain rfl := hnode.unique read hnode'
  obtain rfl := List.append_cancel_right (text.symm.trans text')
  exact ⟨record.symm, start.symm⟩

theorem Site.Of.start_lt (read : ReadAs root r) (h : Site.Of root s x site)
    (h' : Site.Of root s y site') (hxy : x.1 < y.1) : site.start < site'.start := by
  obtain ⟨node, before, hnode, -, -, text, start⟩ := h.stands
  obtain ⟨node', before', hnode', -, -, text', start'⟩ := h'.stands
  have later := hnode.later read hnode' hxy
  have same := congrArg List.length (text.symm.trans text')
  rw [List.length_append, List.length_append] at same
  omega

theorem Site.Of.kindIs_iff (h : Site.Of root s x site) (q : ℚ) :
    KindIs site.record q ↔ q = site.number.toNat := by
  obtain ⟨node, before, -, ⟨g, n, read⟩, record, -, -⟩ := h.stands
  rw [← record, h.number]
  exact (kind_of_read read).2 q

theorem Site.Of.number_eq_iff (h : Site.Of root s x site) (k : UInt32) :
    site.number = k ↔ x.2.kind = .ofBits k := by
  obtain ⟨node, before, -, ⟨g, n, read⟩, -, -, -⟩ := h.stands
  rw [h.number, kind_eq_iff (kind_of_read read).1]

end Sites

section Queries

variable {root : Placed} {s : String} {r : Reflection} {site : List Nat × Reflection → Site}

theorem lists_map_located (fills : Fills root s) (read : ReadAs root r)
    (hsite : ∀ x ∈ r.located, Site.Of root s x (site x)) : Lists s (r.located.map site) := by
  refine ⟨fun address start record => ?_, ?_, ?_⟩
  · constructor
    · intro listed
      obtain ⟨y, hy, rfl, rfl, rfl⟩ := listed
      obtain ⟨x, hx, rfl⟩ := List.mem_map.1 hy
      obtain ⟨node, before, hnode, -, value, text, length⟩ := (hsite x hx).stands
      rw [(hsite x hx).address]
      exact ⟨(r.mem_located.1 hx).1, root, node, before, fills, hnode, value, text, length⟩
    · intro stands
      obtain ⟨some_step, root', node, before, fills', hnode, rfl, text, rfl⟩ := stands
      obtain rfl := fills.unique read fills'
      obtain ⟨e, he, -⟩ := hnode.readAs read
      have hx : (address, e) ∈ r.located := r.mem_located.2 ⟨some_step, he⟩
      obtain ⟨record, start⟩ := (hsite _ hx).unique read hnode text
      exact ⟨site (address, e), List.mem_map_of_mem hx, (hsite _ hx).address, start, record⟩
  · -- addresses are listed in their order, and nodes begin in the order of their addresses
    rw [List.pairwise_map]
    exact r.located_ordered.imp_of_mem fun hx hy hxy =>
      (hsite _ hx).start_lt read (hsite _ hy) hxy
  · intro y hy
    obtain ⟨x, hx, rfl⟩ := List.mem_map.1 hy
    exact (hsite x hx).kindIs_iff

theorem map_value_filter (hsite : ∀ x ∈ r.located, Site.Of root s x (site x)) {p : Site → Bool}
    {q : List Nat × Reflection → Bool} (same : ∀ x ∈ r.located, p (site x) = q x) :
    ((r.located.map site).filter p).map Site.value = (r.located.filter q).map Prod.snd := by
  rw [List.filter_map, List.map_map, List.filter_congr (p := p ∘ site) same]
  exact List.map_congr_left fun x hx => (hsite x (List.mem_filter.1 hx).1).value

theorem answeredBy_map_located (hsite : ∀ x ∈ r.located, Site.Of root s x (site x)) :
    AnsweredBy r (r.located.map site) := by
  refine ⟨fun y hy => ?_, fun k => ?_, fun k => ?_⟩
  · obtain ⟨x, hx, rfl⟩ := List.mem_map.1 hy
    rw [(hsite x hx).address, (hsite x hx).value]
    exact (r.mem_located.1 hx).2
  · have same : ∀ x ∈ r.located, decide ((site x).number = k) = decide (x.2.kind = .ofBits k) := by
      intro x hx
      rw [decide_eq_decide, (hsite x hx).number_eq_iff]
    rw [map_value_filter hsite same, descendantsOfKind, ← map_snd_located, List.filter_map]
    rfl
  · have same : ∀ x ∈ r.located, decide ((site x).number = k ∧ (site x).address.length = 1) =
        decide (x.2.kind = .ofBits k ∧ x.1.length = 1) := by
      intro x hx
      rw [decide_eq_decide, (hsite x hx).number_eq_iff, (hsite x hx).address]
    rw [map_value_filter hsite same, childrenOfKind, ← located_children, List.filter_map,
      List.filter_filter]
    congr 1
    exact List.filter_congr fun x hx => (Bool.decide_and _ _).symm

theorem exists_sites (h : ofText s = .ok r) : ∃ sites, Lists s sites ∧ AnsweredBy r sites := by
  obtain ⟨root, fills, read⟩ := exists_root h
  have some_site : Nonempty Site := ⟨⟨[], 0, .null, 0, r⟩⟩
  have each : ∀ x ∈ r.located, ∃ site, Site.Of root s x site := fun x hx =>
    Site.exists_of fills read hx
  choose! site hsite using each
  exact ⟨_, lists_map_located fills read hsite, answeredBy_map_located hsite⟩

end Queries

def OddKind (ρ : Role) (_ : Regime) (record : Json) : Prop :=
  ρ = .reflection ∧ ∃ q, KindIs record q ∧ ∀ k : UInt32, q ≠ k.toNat

theorem OddKind.refused {ρ : Role} {g : Regime} {n : Nat} {record : Json}
    (h : OddKind ρ g record) (a : ρ.Value) : ρ.read g n record ≠ .ok a := by
  obtain ⟨rfl, q, given, odd⟩ := h
  intro read
  exact odd _ (((kind_of_read read).2 q).1 given)

theorem kind_canonical {s : String} {r d : Reflection} (h : ofText s = .ok r)
    (hd : d ∈ r.descendants) : d.kind.Canonical := by
  obtain ⟨root, -, read⟩ := exists_root h
  rw [← map_snd_located] at hd
  obtain ⟨x, hx, rfl⟩ := List.mem_map.1 hd
  obtain ⟨node, -, g, n, hread⟩ := read.exists_node (r.mem_located.1 hx).2
  exact (kind_of_read hread).1

/-- The queries of an accepted text find the nodes with a number in the order in which they begin,
and each node is found for one number only. A text that gives any other number for a kind is
refused. -/
theorem kind_queries_exact :
    (∀ (s : String) (r : Reflection), ofText s = .ok r →
      (∃ sites, Lists s sites ∧ AnsweredBy r sites) ∧
      ∀ d ∈ r.descendants, ∃! k : UInt32, d ∈ r.descendantsOfKind (.ofBits k)) ∧
    ∀ (s : String) (j : Json), j.SpelledBy s →
      HasRecord OddKind (.one .reflection) .direct Json.maxLevels j →
      ∀ r, ofText s ≠ .ok r := by
  constructor
  · intro s r h
    refine ⟨exists_sites h, fun d hd => ?_⟩
    have found (k : UInt32) : d ∈ r.descendantsOfKind (.ofBits k) ↔ d.kind.bits = k := by
      rw [descendantsOfKind, List.mem_filter, beq_iff_eq, kind_eq_iff (kind_canonical h hd)]
      exact and_iff_right hd
    refine ⟨d.kind.bits, (found _).2 rfl, fun k hk => ?_⟩
    exact ((found k).1 hk).symm
  · intro s j hs odd r hr
    have containers : ∀ ρ g record, OddKind ρ g record → record.IsContainer := by
      intro ρ g record h
      obtain ⟨-, q, given, -⟩ := h
      exact given.isContainer
    exact odd.refused containers (fun ρ g n j h => h.refused) r ((ofText_spelled hs r).1 hr)

theorem kind_queries_exact_interface :
    (∃ (r : Reflection) (sites : List Site), ofText
        "\x7b\"children\":[\x7b\"children\":[\x7b\"kind\":256\x7d]\x7d,\x7b\"kind\":256\x7d]\x7d" =
          .ok r ∧ r.descendants.length = 3 ∧ Lists
        "\x7b\"children\":[\x7b\"children\":[\x7b\"kind\":256\x7d]\x7d,\x7b\"kind\":256\x7d]\x7d"
          sites ∧ AnsweredBy r sites ∧
        ∀ d ∈ r.descendants, ∃! k : UInt32, d ∈ r.descendantsOfKind (.ofBits k)) ∧
      ∀ r, ofText "\x7b\"children\":[\x7b\"kind\":4294967552\x7d]\x7d" ≠ .ok r := by
  obtain ⟨answered, refused⟩ := kind_queries_exact
  constructor
  · have accepted : ofText
        "\x7b\"children\":[\x7b\"children\":[\x7b\"kind\":256\x7d]\x7d,\x7b\"kind\":256\x7d]\x7d" =
        .ok ⟨"", .project, none, none, none, none, [], [], [],
          [⟨"", .project, none, none, none, none, [], [], [],
            [⟨"", .interface, none, none, none, none, [], [], [], [], []⟩], []⟩,
          ⟨"", .interface, none, none, none, none, [], [], [], [], []⟩], []⟩ := by decide +kernel
    obtain ⟨⟨sites, lists, answers⟩, once⟩ := answered _ _ accepted
    exact ⟨_, sites, accepted, by decide +kernel, lists, answers, once⟩
  · have text : Json.SpelledBy (.object [(.ofText "children", .list [.object [(.ofText "kind",
        .number ⟨false, [4, 2, 9, 4, 9, 6, 7, 5, 5, 2], [], none⟩)] .closed] .closed)] .closed)
        "\x7b\"children\":[\x7b\"kind\":4294967552\x7d]\x7d" :=
      Json.spelledBy_iff.2 ⟨by decide +kernel, by decide +kernel⟩
    apply refused _ _ text
    refine @Alters.member _ .reflection _ _ _ _ _ [] _ _ .children _ rfl rfl ?_
    have given : KindIs (.object [(.ofText "kind",
        .number ⟨false, [4, 2, 9, 4, 9, 6, 7, 5, 5, 2], [], none⟩)] .closed) _ :=
      @KindIs.given _ 0 ⟨false, [4, 2, 9, 4, 9, 6, 7, 5, 5, 2], [], none⟩ (by decide +kernel)
    refine @Alters.entry _ _ _ _ _ _ [] _ _ (.here ⟨rfl, rfl, _, given, ?_⟩)
    intro k
    have small := k.toNat_lt
    rw [Json.Numeral.toRat_of_toInteger? (i := 4294967552) (by decide +kernel)]
    norm_cast
    omega

end Reflection

end DocTree
