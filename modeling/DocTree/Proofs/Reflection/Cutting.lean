import DocTree.Proofs.Json.Extent
import DocTree.Proofs.Reflection.Levels
import DocTree.Proofs.Reflection.Texts
import Mathlib.Control.Monad.Basic

/-!
# Cutting and extending the text of a graph

A graph is told by a list or an object, which ends in one place only. So two accepted texts of
which one starts with the other differ in space at the end, and a text that is cut short or
goes on is refused.
-/
namespace DocTree

theorem Json.IsContainer.not_number {j : Json} (hj : j.IsContainer) (n : Json.Numeral) :
    j ≠ .number n := by
  rintro rfl
  exact hj

theorem Reflection.spaces_of_ofText_append {s after : String} {r r' : Reflection}
    (h : ofText s = .ok r) (h' : ofText (s ++ after) = .ok r') :
    ∀ c ∈ after.toList, Json.isSpace c = true := by
  obtain ⟨j, hj, hr⟩ := ofText_iff_spelled.1 h
  obtain ⟨k, hk, hr'⟩ := ofText_iff_spelled.1 h'
  exact hj.spaces_of_append hk (isContainer_of_read hr).not_number
    (isContainer_of_read hr').not_number

/-- An accepted text is refused when it is cut before its last character that is no space, and when
it goes on with anything but space. -/
theorem Reflection.ofText_cut_or_extended (s : String) (r : Reflection) (h : ofText s = .ok r) :
    (∀ cut rest : String, cut ++ rest = s → (∃ c ∈ rest.toList, Json.isSpace c = false) →
      ∃ fault, ofText cut = .error fault) ∧
    (∀ after : String, (∃ c ∈ after.toList, Json.isSpace c = false) →
      ∃ fault, ofText (s ++ after) = .error fault) ∧
    (∀ after : String, (∀ c ∈ after.toList, Json.isSpace c = true) →
      ofText (s ++ after) = .ok r) := by
  refine ⟨?_, ?_, ?_⟩
  · rintro cut rest rfl ⟨c, hc, solid⟩
    cases hcut : ofText cut with
    | error fault => exact ⟨fault, rfl⟩
    | ok r' =>
      have space := spaces_of_ofText_append hcut h c hc
      exact absurd (space.symm.trans solid) (by decide)
  · rintro after ⟨c, hc, solid⟩
    cases hafter : ofText (s ++ after) with
    | error fault => exact ⟨fault, rfl⟩
    | ok r' =>
      have space := spaces_of_ofText_append h hafter c hc
      exact absurd (space.symm.trans solid) (by decide)
  · intro after spaces
    obtain ⟨j, hj, hr⟩ := ofText_iff_spelled.1 h
    exact ofText_iff_spelled.2 ⟨j, hj.append spaces, hr⟩

theorem Reflection.ofText_cut_or_extended_kind :
    Reflection.ofText "\x7b\"kind\":256\x7d\n" =
        .ok ⟨"", .interface, none, none, none, none, [], [], [], [], []⟩ ∧
      (∃ fault, Reflection.ofText "\x7b\"kind\":25" = .error fault) ∧
      (∃ fault, Reflection.ofText ("\x7b\"kind\":256\x7d\n" ++ "0") = .error fault) := by
  have accepted : Reflection.ofText "\x7b\"kind\":256\x7d\n" =
      .ok ⟨"", .interface, none, none, none, none, [], [], [], [], []⟩ := by decide +kernel
  obtain ⟨cut, extended, -⟩ := Reflection.ofText_cut_or_extended _ _ accepted
  refine ⟨accepted, cut _ "6\x7d\n" (by decide) ⟨'6', by decide, by decide⟩, ?_⟩
  exact extended "0" ⟨'0', by decide, by decide⟩

end DocTree
