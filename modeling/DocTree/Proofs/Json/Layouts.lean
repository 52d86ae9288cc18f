import DocTree.Proofs.Json.Scanning
import DocTree.Proofs.Json.Written
import Mathlib.Tactic.SplitIfs

/-!
# What a text says

A text that spells a tree says the value that the tree stands for; how strings are escaped and where
space is left makes no difference to it. Each layout of a value says that value, so two values have
no text in common, and the compact one keeps it on a line.
-/
namespace DocTree.Json

mutual

def value? : Json → Option Value
  | .boolean b => some (.boolean b)
  | .number n =>
      if n.isInteger && !n.negative then some (.number (valueOfDigits n.whole)) else none
  | .text t => t.read.toOption.map .text
  | .list items .closed => (itemValues? items).map .list
  | .object members .closed => (memberValues? members).map .object
  | _ => none

def itemValues? : List Json → Option (List Value)
  | [] => some []
  | j :: js =>
      match j.value?, itemValues? js with
      | some v, some vs => some (v :: vs)
      | _, _ => none

def memberValues? : List Member → Option (List (String × Value))
  | [] => some []
  | (key, j) :: ms =>
      match key.read.toOption, j.value?, memberValues? ms with
      | some k, some v, some vs => some ((k, v) :: vs)
      | _, _, _ => none

end

mutual

theorem value?_tree : ∀ v : Value, v.tree.value? = some v
  | .boolean b => rfl
  | .number n => by
    have whole : valueOfDigits (Numeral.ofNat n).whole = n := valueOfDigits_digitsOf n
    rw [Value.tree, value?, whole]
    rfl
  | .text s => by
    rw [Value.tree, value?, read_ofText]
    rfl
  | .list vs => by
    rw [Value.tree, value?, itemValues?_trees vs]
    rfl
  | .object ms => by
    rw [Value.tree, value?, memberValues?_trees ms]
    rfl

theorem itemValues?_trees : ∀ vs : List Value, itemValues? (itemTrees vs) = some vs
  | [] => rfl
  | v :: vs => by rw [itemTrees, itemValues?, value?_tree v, itemValues?_trees vs]

theorem memberValues?_trees :
    ∀ ms : List (String × Value), memberValues? (memberTrees ms) = some ms
  | [] => rfl
  | (key, v) :: ms => by
    rw [memberTrees, memberValues?, read_ofText, value?_tree v, memberValues?_trees ms]
    rfl

end

mutual

theorem skip_tree : ∀ v : Value, v.tree.skip = .ok ()
  | .boolean _ | .number _ | .text _ => rfl
  | .list vs => skip_list_eq_ok.2 ⟨skip_itemTrees vs, rfl⟩
  | .object ms => skip_object_eq_ok.2 ⟨skip_memberTrees ms, rfl⟩

theorem skip_itemTrees : ∀ vs : List Value, ∀ j ∈ itemTrees vs, j.skip = .ok ()
  | [] => fun _ hj => absurd hj List.not_mem_nil
  | v :: vs => List.forall_mem_cons.2 ⟨skip_tree v, skip_itemTrees vs⟩

theorem skip_memberTrees : ∀ ms : List (String × Value),
    ∀ m ∈ memberTrees ms, m.1.skip = .ok () ∧ m.2.skip = .ok ()
  | [] => fun _ hm => absurd hm List.not_mem_nil
  | (_, v) :: ms => List.forall_mem_cons.2 ⟨⟨rfl, skip_tree v⟩, skip_memberTrees ms⟩

end

theorem spelledBy_write (l : Layout) (v : Value) : v.tree.SpelledBy (v.write l) :=
  spelledBy_iff.2 ⟨Document.ofText_write l v, skip_tree v⟩

/-- A text is JSON and its value is the given one. -/
def Says (s : String) (v : Value) : Prop := ∃ j : Json, j.SpelledBy s ∧ j.value? = some v

theorem Says.unique {s : String} {v w : Value} (h : Says s v) (h' : Says s w) : v = w := by
  obtain ⟨j, hj, hv⟩ := h
  obtain ⟨k, hk, hw⟩ := h'
  rw [hj.unique hk, hw] at hv
  exact (Option.some.inj hv).symm

theorem says_line (l : Layout) (v : Value) : Says (v.write l ++ "\n") v := by
  refine ⟨v.tree, spelledBy_iff.2 ⟨?_, skip_tree v⟩, value?_tree v⟩
  exact Document.ofText_write_append l v (endsNumeral_cons (by decide) []) rfl

theorem lineFeed_notMem_escapeChar (c : Char) : '\n' ∉ escapeChar c := by
  have digits : ∀ n < 16, lowHexDigit n ≠ '\n' := by decide
  unfold escapeChar
  split_ifs with quote backslash b f n r t low
  iterate 7 decide
  · have first := digits (c.toNat / 16) (by omega)
    have second := digits (c.toNat % 16) (Nat.mod_lt _ (by decide))
    simp [first.symm, second.symm]
  · exact fun h => n (List.mem_singleton.1 h).symm

theorem lineFeed_notMem_stringChars (s : String) : '\n' ∉ stringChars s := by
  simp [stringChars, lineFeed_notMem_escapeChar]

mutual

theorem lineFeed_notMem_chars : ∀ (v : Value) (depth : Nat), '\n' ∉ v.chars .compact depth
  | .boolean b, depth => by
    rw [Value.chars]
    cases b <;> decide
  | .number n, depth => by
    intro h
    exact absurd (Nat.isDigit_of_mem_toDigits (by decide) (by decide) h) (by decide)
  | .text s, depth => lineFeed_notMem_stringChars s
  | .list [], depth => by
    rw [Value.chars]
    decide
  | .list (v :: vs), depth => by
    have first := lineFeed_notMem_chars v (depth + 1)
    have others := lineFeed_notMem_itemChars vs (depth + 1)
    simp [Value.chars, Layout.lineBreak, first, others]
  | .object [], depth => by
    rw [Value.chars]
    decide
  | .object ((key, v) :: ms), depth => by
    have named := lineFeed_notMem_stringChars key
    have first := lineFeed_notMem_chars v (depth + 1)
    have others := lineFeed_notMem_memberChars ms (depth + 1)
    simp [Value.chars, Layout.lineBreak, Layout.colon, named, first, others]

theorem lineFeed_notMem_itemChars : ∀ (vs : List Value) (depth : Nat),
    '\n' ∉ itemChars .compact depth vs
  | [], _ => List.not_mem_nil
  | v :: vs, depth => by
    have first := lineFeed_notMem_chars v depth
    have others := lineFeed_notMem_itemChars vs depth
    simp [itemChars, Layout.lineBreak, first, others]

theorem lineFeed_notMem_memberChars : ∀ (ms : List (String × Value)) (depth : Nat),
    '\n' ∉ memberChars .compact depth ms
  | [], _ => List.not_mem_nil
  | (key, v) :: ms, depth => by
    have named := lineFeed_notMem_stringChars key
    have first := lineFeed_notMem_chars v depth
    have others := lineFeed_notMem_memberChars ms depth
    simp [memberChars, Layout.lineBreak, Layout.colon, named, first, others]

end

end DocTree.Json
