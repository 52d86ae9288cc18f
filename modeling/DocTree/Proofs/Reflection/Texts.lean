import DocTree.Proofs.Json.Scanning
import DocTree.Proofs.Json.Wholeness
import DocTree.Proofs.Reflection.Levels

/-!
# The texts of graphs

Only what is JSON is accepted as a graph, and then the graph is what the tree of the text is
read as. So two texts can be compared by the trees that they spell.
-/
namespace DocTree

open Json (Fault Whole bind_eq_ok)

theorem whole_below {α : Type} {read : Nat → Json → Except Fault α} {n : Nat}
    (h : ∀ m < n, Whole (read m)) : ∀ r ∈ below read n, Whole r := by
  intro r hr
  cases n with
  | zero => exact nomatch hr
  | succ n =>
    obtain rfl := Option.some.inj hr
    exact h n (Nat.lt_succ_self n)

theorem Flags.whole (n : Nat) : Whole (Flags.read .direct n) := by
  refine Json.whole_record (fun r hr k => ?_) _
  split at hr
  · exact nomatch hr
  · obtain rfl := Option.some.inj hr
    exact Json.whole_bool.option

theorem Tag.whole (n : Nat) : Whole (Tag.read .direct n) := by
  refine Json.whole_record (fun r hr k => ?_) _
  split at hr
  · exact nomatch hr
  · obtain rfl := Option.some.inj hr
    exact Json.whole_text

theorem Comment.whole (n : Nat) : Whole (Comment.read .direct n) := by
  refine Json.whole_record (fun r hr k => ?_) _
  cases n with
  | zero => exact nomatch hr
  | succ n =>
    obtain rfl := Option.some.inj hr
    cases k with
    | shortText | text => exact Json.whole_text
    | tags => exact .list (whole_below fun m _ => Tag.whole m)

theorem Source.whole (n : Nat) : Whole (Source.read .direct n) := by
  refine Json.whole_record (fun r hr k => ?_) _
  cases n with
  | zero => exact nomatch hr
  | succ n =>
    obtain rfl := Option.some.inj hr
    cases k with
    | fileName => exact Json.whole_text
    | fullFileName => exact Json.whole_text.option
    | line | character => exact Json.whole_word

theorem TypeExpr.whole (n : Nat) : Whole (TypeExpr.read .direct n) :=
  fun _ _ h => Json.skip_of_check (check_of_read h)

theorem Reflection.whole (n : Nat) : Whole (Reflection.read .direct n) := by
  induction n using Nat.strongRecOn with
  | ind n ih =>
    cases n with
    | zero => exact fun j r h => absurd h (tooDeep_ne_ok _ j r)
    | succ n =>
      rw [read_succ]
      refine Json.whole_record (fun r hr k => ?_) _
      obtain rfl := Option.some.inj hr
      cases k with
      | name => exact Json.whole_text
      | kind => exact Json.whole_word.map _
      | flags => exact (Flags.whole n).option
      | comment => exact (Comment.whole n).option
      | type => exact (TypeExpr.whole n).option
      | defaultValue => exact Json.whole_text.option
      | sources => exact .list (whole_below fun m _ => Source.whole m)
      | signatures | parameters | children | typeParameters =>
        rw [readField, readAll_eq]
        exact .list (whole_below fun m hm => ih m (Nat.lt_succ_of_lt hm))

theorem Reflection.ofText_eq_ok {s : String} {r : Reflection} :
    Reflection.ofText s = .ok r ↔
      Reflection.read .direct Json.maxLevels (Json.Document.ofText s).root = .ok r ∧
        (Json.Document.ofText s).trailing = false := by
  rw [Reflection.ofText, Json.Document.decode, bind_eq_ok]
  cases (Json.Document.ofText s).trailing <;> simp [pure, Except.pure]

theorem Reflection.ofText_spelled {s : String} {j : Json} (h : j.SpelledBy s) (r : Reflection) :
    Reflection.ofText s = .ok r ↔ Reflection.read .direct Json.maxLevels j = .ok r := by
  rw [ofText_eq_ok, (Json.spelledBy_iff.1 h).1]
  exact and_iff_left rfl

/-- An accepted text is JSON, and the graph is what its tree is read as. -/
theorem Reflection.ofText_iff_spelled {s : String} {r : Reflection} :
    Reflection.ofText s = .ok r ↔
      ∃ j : Json, j.SpelledBy s ∧ Reflection.read .direct Json.maxLevels j = .ok r := by
  constructor
  · intro h
    obtain ⟨hread, hend⟩ := ofText_eq_ok.1 h
    refine ⟨_, Json.spelledBy_iff.2 ⟨?_, whole _ _ _ hread⟩, hread⟩
    rw [← hend]
  · rintro ⟨j, hj, hread⟩
    exact (ofText_spelled hj r).2 hread

end DocTree
