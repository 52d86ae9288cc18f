import DocTree.Reflection.Basic

/-!
# Addresses in a reflection graph

The address of a reflection below another one lists the positions of the children
that lead to it. Addresses tell two equal reflections at different places apart.
Their lexicographic order puts a reflection before everything below it, and that
before the siblings that follow, so it is the order of a walk in pre-order. The
descendants of a reflection are shown to be the reflections at all addresses but
the empty one, each once and in this order.
-/
namespace DocTree.Reflection

def at? : Reflection → List Nat → Option Reflection
  | r, [] => some r
  | r, i :: p => r.children[i]?.bind (·.at? p)

mutual

def located : Reflection → List (List Nat × Reflection)
  | ⟨_, _, _, _, _, _, _, _, _, children, _⟩ => locatedFrom 0 children

def locatedFrom (i : Nat) : List Reflection → List (List Nat × Reflection)
  | [] => []
  | r :: rs => ([i], r) :: (located r).map (Prod.map (i :: ·) id) ++ locatedFrom (i + 1) rs

end

mutual

theorem map_snd_located : ∀ r : Reflection, r.located.map Prod.snd = r.descendants
  | ⟨_, _, _, _, _, _, _, _, _, children, _⟩ => by
      rw [located, descendants, map_snd_locatedFrom]

theorem map_snd_locatedFrom (i : Nat) :
    ∀ rs : List Reflection, (locatedFrom i rs).map Prod.snd = forest rs
  | [] => by rw [locatedFrom, forest, List.map_nil]
  | r :: rs => by
      have below : (r.located.map (Prod.map (i :: ·) id)).map Prod.snd = r.descendants := by
        rw [List.map_map, ← map_snd_located r]
        rfl
      rw [locatedFrom, forest, List.map_append, List.map_cons, below,
        map_snd_locatedFrom (i + 1) rs]
      rfl

end

mutual

theorem mem_located : ∀ (r : Reflection) {p : List Nat} {d : Reflection},
    (p, d) ∈ r.located ↔ p ≠ [] ∧ r.at? p = some d
  | ⟨_, _, _, _, _, _, _, _, _, children, _⟩, p, d => by
      rw [located, mem_locatedFrom 0 children]
      constructor
      · rintro ⟨j, q, rfl, hq⟩
        exact ⟨List.cons_ne_nil _ _, by simpa [at?] using hq⟩
      · rintro ⟨hne, hq⟩
        obtain ⟨j, q, rfl⟩ := List.exists_cons_of_ne_nil hne
        exact ⟨j, q, by rw [Nat.zero_add], hq⟩

theorem mem_locatedFrom (i : Nat) : ∀ (rs : List Reflection) {p : List Nat} {d : Reflection},
    (p, d) ∈ locatedFrom i rs ↔ ∃ j q, p = (i + j) :: q ∧ rs[j]?.bind (·.at? q) = some d
  | [], p, d => by simp [locatedFrom]
  | r :: rs, p, d => by
      have below : (p, d) ∈ r.located.map (Prod.map (i :: ·) id) ↔
          ∃ q, p = i :: q ∧ q ≠ [] ∧ r.at? q = some d := by
        simp only [List.mem_map, Prod.exists, Prod.map_apply, id_eq, Prod.mk.injEq]
        constructor
        · rintro ⟨q, e, hq, rfl, rfl⟩
          exact ⟨q, rfl, (mem_located r).1 hq⟩
        · rintro ⟨q, rfl, hq⟩
          exact ⟨q, d, (mem_located r).2 hq, rfl, rfl⟩
      rw [locatedFrom, List.cons_append, List.mem_cons, List.mem_append, below,
        mem_locatedFrom (i + 1) rs]
      constructor
      · rintro (h | ⟨q, rfl, -, hq⟩ | ⟨j, q, rfl, hq⟩)
        · obtain ⟨rfl, rfl⟩ := Prod.mk.inj h
          exact ⟨0, [], rfl, rfl⟩
        · exact ⟨0, q, rfl, hq⟩
        · exact ⟨j + 1, q, by rw [Nat.add_right_comm, Nat.add_assoc], hq⟩
      · rintro ⟨j, q, rfl, hq⟩
        cases j with
        | zero =>
          cases q with
          | nil => exact .inl (by simpa [at?] using hq.symm)
          | cons k q => exact .inr (.inl ⟨k :: q, rfl, List.cons_ne_nil _ _, hq⟩)
        | succ j => exact .inr (.inr ⟨j, q, by rw [Nat.add_right_comm, Nat.add_assoc], hq⟩)

end

mutual

theorem located_ordered : ∀ r : Reflection, r.located.Pairwise (·.1 < ·.1)
  | ⟨_, _, _, _, _, _, _, _, _, children, _⟩ => by
      rw [located]
      exact locatedFrom_ordered 0 children

theorem locatedFrom_ordered (i : Nat) :
    ∀ rs : List Reflection, (locatedFrom i rs).Pairwise (·.1 < ·.1)
  | [] => by
      rw [locatedFrom]
      exact List.Pairwise.nil
  | r :: rs => by
      have later : ∀ a ∈ locatedFrom (i + 1) rs, ∀ q, i :: q < a.1 := by
        rintro ⟨p, d⟩ ha q
        obtain ⟨j, t, rfl, -⟩ := (mem_locatedFrom (i + 1) rs).1 ha
        exact List.Lex.rel (by omega)
      have below : ∀ a ∈ r.located.map (Prod.map (i :: ·) id), ∃ q, a.1 = i :: q ∧ q ≠ [] := by
        intro a ha
        obtain ⟨⟨q, e⟩, hq, rfl⟩ := List.mem_map.1 ha
        exact ⟨q, rfl, ((mem_located r).1 hq).1⟩
      rw [locatedFrom, List.cons_append, List.pairwise_cons, List.pairwise_append,
        List.pairwise_map]
      refine ⟨?_, ?_, locatedFrom_ordered (i + 1) rs, ?_⟩
      · intro a ha
        rcases List.mem_append.1 ha with ha | ha
        · obtain ⟨q, hq, hne⟩ := below a ha
          obtain ⟨k, q, rfl⟩ := List.exists_cons_of_ne_nil hne
          rw [hq]
          exact List.Lex.cons List.Lex.nil
        · exact later a ha []
      · exact (located_ordered r).imp fun h => List.Lex.cons h
      · intro a ha b hb
        obtain ⟨q, hq, -⟩ := below a ha
        rw [hq]
        exact later b hb q

end

end DocTree.Reflection
