import DocTree.Proofs.Reflection.Address
import DocTree.Proofs.Reflection.Levels
import DocTree.Proofs.Reflection.Texts

/-!
# How deep a graph goes

Every step into a graph enters the objects of its text: one for a single type or declaration,
two for a member of a list. Whatever was read with some levels left has its own parts read with
as many levels less, whether they come straight from the text or from what was kept. So the
levels of the text bound all paths of the graph, while values that stand for no field are not
counted.
-/
namespace DocTree

open Json (Regime Fault Member Fields bind_eq_ok readList readOption)

inductive Node where
  | reflection (r : Reflection)
  | type (t : TypeExpr)

namespace Node

/-- The first node holds the second one directly, and the step enters this many lists and objects:
two for a member of a list, one for a single type or declaration. -/
inductive Enters : Node → Nat → Node → Prop
  | signature {r c : Reflection} : c ∈ r.signatures → Enters (reflection r) 2 (reflection c)
  | parameter {r c : Reflection} : c ∈ r.parameters → Enters (reflection r) 2 (reflection c)
  | child {r c : Reflection} : c ∈ r.children → Enters (reflection r) 2 (reflection c)
  | typeParameter {r c : Reflection} : c ∈ r.typeParameters → Enters (reflection r) 2 (reflection c)
  | declared {r : Reflection} {t : TypeExpr} : r.type = some t → Enters (reflection r) 1 (type t)
  | argument {name : String} {ts : List TypeExpr} {t : TypeExpr} :
      t ∈ ts → Enters (type (.reference name ts)) 2 (type t)
  | element {t : TypeExpr} : Enters (type (.array t)) 1 (type t)
  | alternative {ts : List TypeExpr} {t : TypeExpr} : t ∈ ts → Enters (type (.union ts)) 2 (type t)
  | constituent {ts : List TypeExpr} {t : TypeExpr} :
      t ∈ ts → Enters (type (.intersection ts)) 2 (type t)
  | component {ts : List TypeExpr} {t : TypeExpr} : t ∈ ts → Enters (type (.tuple ts)) 2 (type t)
  | target {name : String} {t : TypeExpr} : Enters (type (.operator name t)) 1 (type t)
  | declaration {d : Reflection} : Enters (type (.inline d)) 1 (reflection d)

inductive Reaches (a : Node) : Nat → Node → Prop
  | here : Reaches a 0 a
  | step {k m : Nat} {b c : Node} : Reaches a k b → Enters b m c → Reaches a (k + m) c

theorem Enters.reaches {a b : Node} {k : Nat} (h : Enters a k b) : Reaches a k b :=
  Nat.zero_add k ▸ Reaches.here.step h

theorem Enters.pos {a b : Node} {k : Nat} (h : Enters a k b) : 0 < k := by
  cases h <;> decide

theorem Reaches.trans {a b c : Node} {k m : Nat} (h : Reaches a k b) (h' : Reaches b m c) :
    Reaches a (k + m) c := by
  induction h' with
  | here => exact h
  | step _ last ih => exact Nat.add_assoc .. ▸ ih.step last

/-- With the node itself at most `n` lists and objects are entered on any path. -/
def Within (n : Nat) (a : Node) : Prop := ∀ k b, Reaches a k b → k + 1 ≤ n

theorem Within.pos {a : Node} {n : Nat} (h : Within n a) : 0 < n := h 0 a .here

theorem Within.below {a b : Node} {n k : Nat} (h : Within n a) (path : Reaches a k b) :
    Within (n - k) b := by
  intro m c hc
  have := h (k + m) c (path.trans hc)
  omega

def ReadWith (n : Nat) : Node → Prop
  | reflection r => ∃ g j, Reflection.read g n j = .ok r
  | type t => ∃ g j, TypeExpr.read g n j = .ok t

theorem ReadWith.pos {a : Node} {n : Nat} (h : a.ReadWith n) : 0 < n := by
  cases n with
  | zero =>
    cases a with
    | reflection r =>
      obtain ⟨g, j, h⟩ := h
      exact absurd h (tooDeep_ne_ok _ j r)
    | type t =>
      obtain ⟨g, j, h⟩ := h
      exact absurd h (tooDeep_ne_ok _ j t)
  | succ n => exact Nat.succ_pos n

end Node

theorem mem_of_readList {α : Type} {read : Nat → Json → Except Fault α} {n : Nat} {j : Json}
    {as : List α} (h : readList (below read n) j = .ok as) {a : α} (ha : a ∈ as) :
    ∃ m x, n = m + 1 ∧ read m x = .ok a := by
  cases j with
  | list items e =>
    cases n with
    | zero => cases h
    | succ n =>
      obtain ⟨bs, items_read, h⟩ := bind_eq_ok.1 h
      obtain ⟨u, -, h⟩ := bind_eq_ok.1 h
      obtain rfl := Except.ok.inj h
      obtain ⟨x, -, hx⟩ := Json.exists_of_mem_mapM items_read a ha
      exact ⟨n, x, rfl, hx⟩
  | _ =>
    unfold readList at h
    exact absurd h (Json.mismatch_ne_ok "a sequence" _ as)

theorem mem_getD_nil {α : Type} {o : Option (List α)} {a : α} (h : a ∈ o.getD []) :
    ∃ as, o = some as ∧ a ∈ as := by
  cases o with
  | none => exact absurd h List.not_mem_nil
  | some as => exact ⟨as, rfl, h⟩

section Parts

variable {g : Regime} {n : Nat} {j : Json}

theorem Reflection.parts_of_read {r : Reflection} (h : Reflection.read g (n + 1) j = .ok r) :
    (∀ t, r.type = some t → ∃ x, TypeExpr.read g n x = .ok t) ∧
    ∀ cs ∈ [r.signatures, r.parameters, r.children, r.typeParameters], ∀ c ∈ cs,
      ∃ m x, n = m + 1 ∧ Reflection.read g m x = .ok c := by
  rw [read_succ] at h
  obtain ⟨f, hf, built⟩ := Json.readBy_of_readRecord h
  obtain rfl := Except.ok.inj built
  constructor
  · intro t ht
    have given : f .type = some (some t) := Option.join_eq_some_iff.1 ht
    obtain ⟨x, hx⟩ := hf .type _ given
    exact ⟨x, (readOption_eq_some.1 hx).2⟩
  · intro cs hcs c hc
    simp only [List.mem_cons, List.not_mem_nil, or_false] at hcs
    rcases hcs with rfl | rfl | rfl | rfl
    all_goals
      obtain ⟨as, given, hc⟩ := mem_getD_nil hc
      obtain ⟨x, hx⟩ := hf _ _ given
      rw [readField, readAll_eq] at hx
      exact mem_of_readList hx hc

theorem TypeExpr.fields_of_readBody {tag : TypeTag} {t : TypeExpr}
    (h : readBody n tag j = .ok t) :
    t = .other ∨ ∃ f : Fields TypeKey.Value, f.ReadBy (readField n) ∧ ofFields tag f = .ok t := by
  unfold readBody at h
  split at h
  · split at h
    · cases h
    · exact .inl (Except.ok.inj h).symm
  · exact .inr (Json.readBy_of_readRecord h)

theorem TypeExpr.fields_of_read {t : TypeExpr} (h : TypeExpr.read g (n + 1) j = .ok t) :
    t = .other ∨ ∃ (tag : TypeTag) (f : Fields TypeKey.Value), f.ReadBy (readField n) ∧
      ofFields tag f = .ok t := by
  have container := isContainer_of_read h
  cases j with
  | list items e =>
    obtain ⟨x, rest, tag, -, -, -, -, body⟩ := read_list_eq_ok.1 h
    exact (fields_of_readBody body).imp_right fun given => ⟨tag, given⟩
  | object ms e =>
    obtain ⟨tag, -, -, body⟩ := read_object_eq_ok.1 h
    exact (fields_of_readBody body).imp_right fun given => ⟨tag, given⟩
  | _ => exact container.elim

def TypeExpr.GivenBy (f : Fields TypeKey.Value) : TypeExpr → Prop
  | .reference _ ts => ts = (f .typeArguments).getD []
  | .array t => f .elementType = some t
  | .union ts | .intersection ts => f .types = some ts
  | .tuple ts => ts = (f .elements).getD []
  | .operator _ t => f .target = some t
  | .inline d => f .declaration = some d
  | _ => True

theorem required_eq_ok {α : Type} {name : String} {o : Option α} {a : α} :
    Json.required name o = .ok a ↔ o = some a := by
  cases o <;> simp [Json.required]

theorem TypeExpr.givenBy_of_ofFields {tag : TypeTag} {f : Fields TypeKey.Value} {t : TypeExpr}
    (h : ofFields tag f = .ok t) : t.GivenBy f := by
  cases tag with
  | reference =>
    obtain ⟨name, -, h⟩ := bind_eq_ok.1 h
    obtain rfl := Except.ok.inj h
    rfl
  | array | union | intersection | inline =>
    obtain ⟨a, ha, rfl⟩ := Json.map_eq_ok.1 h
    exact required_eq_ok.1 ha
  | tuple =>
    obtain rfl := Except.ok.inj h
    rfl
  | operator =>
    obtain ⟨name, -, h⟩ := bind_eq_ok.1 h
    obtain ⟨target, given, h⟩ := bind_eq_ok.1 h
    obtain rfl := Except.ok.inj h
    exact required_eq_ok.1 given
  | intrinsic | stringLiteral | parameter | unknown =>
    obtain ⟨a, -, rfl⟩ := Json.map_eq_ok.1 h
    trivial
  | other =>
    obtain rfl := Except.ok.inj h
    trivial

end Parts

namespace Node

theorem readWith_entry {ts : List TypeExpr} {t : TypeExpr} {n : Nat} {x : Json}
    (h : TypeExpr.readAll n x = .ok ts) (ht : t ∈ ts) :
    ∃ m, m + 2 = n + 1 ∧ ReadWith m (type t) := by
  rw [TypeExpr.readAll_eq] at h
  obtain ⟨m, y, rfl, hy⟩ := mem_of_readList h ht
  exact ⟨m, rfl, .kept, y, hy⟩

theorem ReadWith.step {a b : Node} {n k : Nat} (h : a.ReadWith n) (step : Enters a k b) :
    ∃ m, m + k = n ∧ b.ReadWith m := by
  obtain ⟨n, rfl⟩ := Nat.exists_eq_succ_of_ne_zero (Nat.pos_iff_ne_zero.1 h.pos)
  cases a with
  | reflection r =>
    obtain ⟨g, j, h⟩ := h
    obtain ⟨type, lists⟩ := Reflection.parts_of_read h
    cases step with
    | declared ht =>
      obtain ⟨x, hx⟩ := type _ ht
      exact ⟨n, rfl, g, x, hx⟩
    | signature hc | parameter hc | child hc | typeParameter hc =>
      obtain ⟨m, x, rfl, hx⟩ := lists _ (by simp) _ hc
      exact ⟨m, rfl, g, x, hx⟩
  | type t =>
    obtain ⟨g, j, h⟩ := h
    obtain rfl | ⟨tag, f, hf, built⟩ := TypeExpr.fields_of_read h
    · cases step
    · have given := TypeExpr.givenBy_of_ofFields built
      cases step with
      | argument ht | component ht =>
        obtain ⟨ts, given, ht⟩ := mem_getD_nil (given ▸ ht)
        obtain ⟨x, hx⟩ := hf _ _ given
        exact readWith_entry hx ht
      | alternative ht | constituent ht =>
        obtain ⟨x, hx⟩ := hf _ _ given
        exact readWith_entry hx ht
      | element | target | declaration =>
        obtain ⟨x, hx⟩ := hf _ _ given
        exact ⟨n, rfl, .kept, x, hx⟩

theorem ReadWith.reaches {a b : Node} {n k : Nat} (h : a.ReadWith n) (path : Reaches a k b) :
    ∃ m, m + k = n ∧ b.ReadWith m := by
  induction path with
  | here => exact ⟨n, rfl, h⟩
  | @step k l b c _ last ih =>
    obtain ⟨m, rfl, hb⟩ := ih
    obtain ⟨i, rfl, hc⟩ := hb.step last
    exact ⟨i, by omega, hc⟩

theorem ReadWith.within {a : Node} {n : Nat} (h : a.ReadWith n) : Within n a := by
  intro k b path
  obtain ⟨m, rfl, hb⟩ := h.reaches path
  have := hb.pos
  omega

theorem reaches_of_at? {r d : Reflection} {p : List Nat} (h : r.at? p = some d) :
    Reaches (reflection r) (2 * p.length) (reflection d) := by
  induction p generalizing r with
  | nil =>
    obtain rfl := Option.some.inj h
    exact .here
  | cons i p ih =>
    obtain ⟨c, hc, h⟩ := Option.bind_eq_some_iff.1 h
    have first : Reaches (reflection r) 2 (reflection c) :=
      (Enters.child (List.mem_of_getElem? hc)).reaches
    rw [List.length_cons, Nat.mul_succ, Nat.add_comm]
    exact first.trans (ih h)

theorem reaches_of_mem_descendants {r d : Reflection} (h : d ∈ r.descendants) :
    ∃ k, Reaches (reflection r) k (reflection d) := by
  rw [← r.map_snd_located, List.mem_map] at h
  obtain ⟨⟨p, e⟩, located, rfl⟩ := h
  exact ⟨_, reaches_of_at? (r.mem_located.1 located).2⟩

end Node

theorem Reflection.within_of_ofText {s : String} {r : Reflection} (h : ofText s = .ok r) :
    Node.Within Json.maxLevels (.reflection r) := by
  obtain ⟨j, -, hr⟩ := ofText_iff_spelled.1 h
  exact Node.ReadWith.within ⟨.direct, j, hr⟩

end DocTree
