import DocTree.Proofs.Json.Fields
import DocTree.Proofs.Json.Positions
import DocTree.Proofs.Reflection.Address
import DocTree.Proofs.Reflection.Texts

/-!
# Where the nodes of a graph stand in its text

The record of a node is reached from the record of the graph by the addresses of its children,
through the parts of the records that are given for them. Each address leads to one place in the
text. A node begins before the nodes below it, and those end before the next sibling begins, so the
nodes begin in the order of their addresses.
-/
namespace DocTree

open Json (Regime Fault Placed PartAt Spaces Ending bind_eq_ok readList Taken)

theorem Json.getElem?_mapM {α β : Type} {read : α → Except Fault β} {xs : List α} {ys : List β}
    (h : xs.mapM read = .ok ys) (i : Nat) :
    Option.Rel (fun x y => read x = .ok y) xs[i]? ys[i]? := by
  induction xs generalizing ys i with
  | nil =>
    obtain rfl := Except.ok.inj h
    exact .none
  | cons x xs ih =>
    rw [List.mapM_cons, bind_eq_ok] at h
    obtain ⟨y, hy, h⟩ := h
    obtain ⟨zs, hzs, h⟩ := bind_eq_ok.1 h
    obtain rfl := Except.ok.inj h
    cases i with
    | zero => exact .some hy
    | succ i => exact ih hzs i

namespace Reflection

inductive ChildrenRead (g : Regime) (n : Nat) (record : Json) : List Reflection → Prop
  | absent : (∀ (k : Nat) (v : Json), (shape.given record)[k]? ≠ some (some .children, v)) →
      ChildrenRead g n record []
  | present {k m : Nat} {items : List Json} {e : Ending} {rs : List Reflection} :
      n = m + 1 → (shape.given record)[k]? = some (some .children, .list items e) →
      (∀ (k' : Nat) (v : Json), (shape.given record)[k']? = some (some .children, v) → k' = k) →
      items.mapM (Reflection.read g m) = .ok rs → ChildrenRead g n record rs

theorem childrenRead {g : Regime} {n : Nat} {record : Json} {r : Reflection}
    (h : Reflection.read g (n + 1) record = .ok r) : ChildrenRead g n record r.children := by
  rw [read_succ] at h
  obtain ⟨f, taken, built⟩ := Json.taken_of_readRecord (by decide) h
  have children_eq : r.children = (f .children).getD [] := by rw [← Except.ok.inj built]
  have children := taken .children
  rw [children_eq]
  generalize f .children = o at children
  cases children with
  | absent none => exact .absent none
  | @present k v rs found only hread =>
    rw [readField, readAll_eq] at hread
    cases v with
    | list items e =>
      cases n with
      | zero => cases hread
      | succ m =>
        obtain ⟨rs', items_read, hread⟩ := bind_eq_ok.1 hread
        obtain ⟨u, -, hread⟩ := bind_eq_ok.1 hread
        obtain rfl := Except.ok.inj hread
        exact .present rfl found only items_read
    | _ =>
      unfold readList at hread
      exact absurd hread (Json.mismatch_ne_ok "a sequence" _ rs)

def ReadAs (p : Placed) (r : Reflection) : Prop := ∃ g n, Reflection.read g n p.value = .ok r

inductive ChildList (node list : Placed) : Prop
  | intro {k : Nat} {items : List Json} {e : Ending} :
      (shape.given node.value)[k]? = some (some .children, list.value) →
      list.value = .list items e → PartAt node k list → ChildList node list

def ChildAt (node : Placed) (i : Nat) (child : Placed) : Prop :=
  ∃ list, ChildList node list ∧ PartAt list i child

theorem ReadAs.not_number {p : Placed} {r : Reflection} (h : ReadAs p r) (d : Json.Numeral) :
    p.value ≠ .number d := by
  obtain ⟨g, n, h⟩ := h
  have container := isContainer_of_read h
  intro hd
  rw [hd] at container
  exact container

theorem ReadAs.children {p : Placed} {r : Reflection} (h : ReadAs p r) :
    ∃ g n, ChildrenRead g n p.value r.children := by
  obtain ⟨g, n, h⟩ := h
  cases n with
  | zero => exact absurd h (tooDeep_ne_ok _ _ r)
  | succ n => exact ⟨g, n, childrenRead h⟩

theorem given_parts {record : Json} {k : Nat} {o : Option ReflectionKey} {v : Json}
    (h : (shape.given record)[k]? = some (o, v)) : record.parts[k]? = some v := by
  cases record with
  | list items e =>
    rw [Json.Shape.given, List.getElem?_mapIdx, Option.map_eq_some_iff] at h
    obtain ⟨x, hx, h⟩ := h
    exact (Prod.mk.inj h).2 ▸ hx
  | object members e =>
    rw [Json.Shape.given, List.getElem?_map, Option.map_eq_some_iff] at h
    obtain ⟨m, hm, h⟩ := h
    rw [Json.parts, List.getElem?_map, hm]
    exact congrArg some (Prod.mk.inj h).2
  | _ => cases h

section Children

variable {node list list' child child' : Placed} {r c : Reflection} {i i' : Nat}

theorem ChildList.not_number (h : ChildList node list) (d : Json.Numeral) :
    list.value ≠ .number d := by
  obtain ⟨-, hlist, -⟩ := h
  rw [hlist]
  exact Json.noConfusion

theorem ChildList.unique (h : ReadAs node r) (hlist : ChildList node list)
    (hlist' : ChildList node list') : list = list' := by
  obtain ⟨g, n, children⟩ := h.children
  have noNumber := hlist.not_number
  obtain ⟨given, -, stands⟩ := hlist
  obtain ⟨given', -, stands'⟩ := hlist'
  generalize r.children = cs at children
  cases children with
  | absent none => exact absurd given (none _ _)
  | present _ _ only _ =>
    obtain rfl := only _ _ given
    obtain rfl := only _ _ given'
    exact stands.unique noNumber stands'

theorem ReadAs.exists_child (h : ReadAs node r) (hc : r.children[i]? = some c) :
    ∃ child, ChildAt node i child ∧ ReadAs child c := by
  obtain ⟨g, n, children⟩ := h.children
  generalize r.children = cs at children hc
  cases children with
  | absent => cases hc
  | @present k m items e _ _ found _ hread =>
    have item := Json.getElem?_mapM hread i
    rw [hc] at item
    generalize hx : items[i]? = o at item
    cases item with
    | @some x _ hread =>
      obtain ⟨list, stands, hlist⟩ := PartAt.exists_of_parts (given_parts found)
      have here : list.value.parts[i]? = some x := by rwa [hlist]
      obtain ⟨child, inside, hchild⟩ := PartAt.exists_of_parts here
      rw [← hlist] at found
      exact ⟨child, ⟨list, .intro found hlist stands, inside⟩, g, m, by rwa [hchild]⟩

theorem ChildAt.readAs (h : ReadAs node r) (hc : ChildAt node i child) :
    ∃ c, r.children[i]? = some c ∧ ReadAs child c := by
  obtain ⟨g, n, children⟩ := h.children
  obtain ⟨list, ⟨given, -, -⟩, inside⟩ := hc
  generalize r.children = cs at children
  cases children with
  | absent none => exact absurd given (none _ _)
  | @present k m items e _ _ found only hread =>
    obtain rfl := only _ _ given
    have same : list.value = .list items e := by simpa [given] using found
    have value := inside.value
    rw [same] at value
    have item := Json.getElem?_mapM hread i
    rw [show items[i]? = some child.value from value] at item
    generalize cs[i]? = o at item
    cases item with
    | some hx => exact ⟨_, rfl, g, m, hx⟩

theorem ChildAt.not_number (h : ReadAs node r) (hc : ChildAt node i child) (d : Json.Numeral) :
    child.value ≠ .number d := by
  obtain ⟨c, -, hchild⟩ := hc.readAs h
  exact hchild.not_number d

theorem ChildAt.unique (h : ReadAs node r) (hc : ChildAt node i child)
    (hc' : ChildAt node i child') : child = child' := by
  have noNumber := hc.not_number h
  obtain ⟨list, hlist, inside⟩ := hc
  obtain ⟨list', hlist', inside'⟩ := hc'
  obtain rfl := hlist.unique h hlist'
  exact inside.unique noNumber inside'

theorem ChildAt.suffix (hc : ChildAt node i child) : child.text <:+ node.text := by
  obtain ⟨list, ⟨-, -, stands⟩, inside⟩ := hc
  exact inside.suffix.trans stands.suffix

theorem ChildAt.text_lt (hc : ChildAt node i child) : child.text.length < node.text.length := by
  obtain ⟨list, ⟨-, -, stands⟩, inside⟩ := hc
  exact Nat.lt_trans inside.text_lt stands.text_lt

theorem ChildAt.behind_lt (h : ReadAs node r) (hc : ChildAt node i child) :
    node.behind.length < child.behind.length := by
  have noNumber := hc.not_number h
  obtain ⟨list, hlist, inside⟩ := hc
  have noNumber' := hlist.not_number
  obtain ⟨-, -, stands⟩ := hlist
  exact Nat.lt_trans (stands.behind_lt noNumber') (inside.behind_lt noNumber)

theorem ChildAt.apart (h : ReadAs node r) (hc : ChildAt node i child)
    (hc' : ChildAt node i' child') (hi : i < i') : child'.text.length < child.behind.length := by
  have noNumber := hc.not_number h
  obtain ⟨list, hlist, inside⟩ := hc
  obtain ⟨list', hlist', inside'⟩ := hc'
  obtain rfl := hlist.unique h hlist'
  exact inside.apart noNumber inside' hi

end Children

inductive NodeAt : Placed → List Nat → Placed → Prop
  | root {p : Placed} : NodeAt p [] p
  | step {p c d : Placed} {i : Nat} {address : List Nat} :
      ChildAt p i c → NodeAt c address d → NodeAt p (i :: address) d

section Nodes

variable {p d d' : Placed} {r e : Reflection} {a b : List Nat}

theorem ReadAs.exists_node (h : ReadAs p r) (he : r.at? a = some e) :
    ∃ d, NodeAt p a d ∧ ReadAs d e := by
  induction a generalizing p r with
  | nil =>
    obtain rfl := Option.some.inj he
    exact ⟨p, .root, h⟩
  | cons i a ih =>
    obtain ⟨c, hc, he⟩ := Option.bind_eq_some_iff.1 he
    obtain ⟨child, hchild, hread⟩ := h.exists_child hc
    obtain ⟨d, hd, hde⟩ := ih hread he
    exact ⟨d, .step hchild hd, hde⟩

theorem NodeAt.readAs (hd : NodeAt p a d) (h : ReadAs p r) :
    ∃ e, r.at? a = some e ∧ ReadAs d e := by
  induction hd generalizing r with
  | root => exact ⟨r, rfl, h⟩
  | step hc _ ih =>
    obtain ⟨c, hrc, hread⟩ := hc.readAs h
    obtain ⟨e, he, hde⟩ := ih hread
    exact ⟨e, Option.bind_eq_some_iff.2 ⟨c, hrc, he⟩, hde⟩

theorem NodeAt.unique (h : ReadAs p r) (hd : NodeAt p a d) (hd' : NodeAt p a d') : d = d' := by
  induction hd generalizing r with
  | root =>
    cases hd'
    rfl
  | step hc _ ih =>
    cases hd' with
    | step hc' hd' =>
      obtain rfl := hc.unique h hc'
      obtain ⟨c, -, hread⟩ := hc.readAs h
      exact ih hread hd'

theorem NodeAt.suffix (hd : NodeAt p a d) : d.text <:+ p.text := by
  induction hd with
  | root => exact List.suffix_rfl
  | step hc _ ih => exact ih.trans hc.suffix

theorem NodeAt.behind_le (h : ReadAs p r) (hd : NodeAt p a d) :
    p.behind.length ≤ d.behind.length := by
  induction hd generalizing r with
  | root => exact Nat.le_refl _
  | step hc _ ih =>
    obtain ⟨c, -, hread⟩ := hc.readAs h
    exact Nat.le_trans (Nat.le_of_lt (hc.behind_lt h)) (ih hread)

theorem NodeAt.later (h : ReadAs p r) (hd : NodeAt p a d) (hd' : NodeAt p b d') (hab : a < b) :
    d'.text.length < d.text.length := by
  induction hd generalizing r b with
  | root =>
    cases hd' with
    | root => exact absurd hab (List.not_lt_nil _)
    | step hc hd' => exact Nat.lt_of_le_of_lt hd'.suffix.length_le hc.text_lt
  | @step _ _ d _ _ hc hd ih =>
    cases hd' with
    | root => exact absurd hab (List.not_lt_nil _)
    | step hc' hd' =>
      obtain ⟨c, -, hread⟩ := hc.readAs h
      cases hab with
      | rel hi =>
        -- the first node ends with the child above it, before the other child begins
        have apart := hc.apart h hc' hi
        have inside := hd.behind_le hread
        have here := hd'.suffix.length_le
        have ends := d.spelled.length_lt
        omega
      | cons hab =>
        obtain rfl := hc.unique h hc'
        exact ih hread hd' hab

end Nodes

structure Fills (p : Placed) (s : String) : Prop where
  front : Spaces s.toList p.text
  back : Spaces p.behind []

/-- In the text of a graph the node at an address has the given record, and the text of the record
begins behind as many characters. -/
def Stands (s : String) (address : List Nat) (start : Nat) (record : Json) : Prop :=
  ∃ root node before, Fills root s ∧ NodeAt root address node ∧ node.value = record ∧
    s.toList = before ++ node.text ∧ before.length = start

theorem Fills.spelledBy {p : Placed} {s : String} (h : Fills p s) : p.value.SpelledBy s :=
  ⟨p.behind, .of_spaces h.front p.spelled, h.back⟩

theorem exists_fills {j : Json} {s : String} (h : j.SpelledBy s) :
    ∃ p, Fills p s ∧ p.value = j := by
  obtain ⟨rest, spelled, spaces⟩ := h
  exact ⟨.ofSpelled spelled, ⟨Json.spaces_skipSpace _, spaces⟩, rfl⟩

theorem Fills.unique {p p' : Placed} {r : Reflection} {s : String} (hr : ReadAs p r)
    (h : Fills p s) (h' : Fills p' s) : p = p' := by
  refine Placed.eq_of_value (h.spelledBy.unique h'.spelledBy) ?_ hr.not_number
  rw [Placed.text_eq h.front, Placed.text_eq h'.front]

theorem exists_root {s : String} {r : Reflection} (h : ofText s = .ok r) :
    ∃ root, Fills root s ∧ ReadAs root r := by
  obtain ⟨j, hj, hr⟩ := ofText_iff_spelled.1 h
  obtain ⟨root, hroot, rfl⟩ := exists_fills hj
  exact ⟨root, hroot, _, _, hr⟩

theorem Fills.exists_before {root node : Placed} {s : String} {a : List Nat} (h : Fills root s)
    (hnode : NodeAt root a node) : ∃ before, s.toList = before ++ node.text := by
  obtain ⟨before, heq⟩ := hnode.suffix.trans h.front.suffix
  exact ⟨before, heq.symm⟩

end Reflection

end DocTree
