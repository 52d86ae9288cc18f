import DocTree.Proofs.Path.Clean

/-!
# The way back to a target

A relative path goes up from the base to where the two paths part, and from there down to the
target. Followed from the base it leads to the target, with one exception: the clean path of a
base that says nothing is written as a dot, and the way goes up from this dot as if it were a
directory.
-/
namespace DocTree

namespace Path

/-- Two lists have a start in common and part behind it. -/
structure Forks {α : Type} (xs ys common above below : List α) : Prop where
  left : xs = common ++ above
  right : ys = common ++ below
  apart : ∀ a ∈ above.head?, ∀ b ∈ below.head?, a ≠ b

theorem commonLength_texts {xs ys : List Step} (hxs : ∀ s ∈ xs, s.Readable)
    (hys : ∀ s ∈ ys, s.Readable) :
    ∃ common above below, Forks xs ys common above below ∧
      commonLength (xs.map Step.text) (ys.map Step.text) = common.length := by
  induction xs generalizing ys with
  | nil => exact ⟨[], [], ys, ⟨rfl, rfl, by simp⟩, by simp [commonLength]⟩
  | cons x xs ih =>
    cases ys with
    | nil => exact ⟨[], x :: xs, [], ⟨rfl, rfl, by simp⟩, by simp [commonLength]⟩
    | cons y ys =>
      by_cases hxy : x = y
      · subst hxy
        obtain ⟨common, above, below, forks, hlength⟩ :=
          ih (fun s hs => hxs s (List.mem_cons_of_mem _ hs))
            (fun s hs => hys s (List.mem_cons_of_mem _ hs))
        refine ⟨x :: common, above, below, ⟨?_, ?_, forks.apart⟩, ?_⟩
        · rw [forks.left, List.cons_append]
        · rw [forks.right, List.cons_append]
        · simp [commonLength, hlength]
      · have texts_differ : x.text ≠ y.text := fun htext =>
          hxy ((hxs x List.mem_cons_self).text_injective (hys y List.mem_cons_self) htext)
        refine ⟨[], x :: xs, y :: ys, ⟨rfl, rfl, by simpa using hxy⟩, ?_⟩
        simp [commonLength, texts_differ]

theorem Settled.head_up {rooted : Bool} {s : Step} {steps before : List Step}
    (h : Settled rooted ((s :: steps).reverse ++ before)) (hup : Step.up ∈ s :: steps) :
    s = .up := by
  rcases List.mem_cons.1 hup with hs | hup
  · exact hs.symm
  · rw [List.reverse_cons, List.append_assoc] at h
    have later := (List.pairwise_append.1 h.ups_first).2.2
    exact later .up (List.mem_reverse.2 hup) s (List.mem_append_left _ List.mem_cons_self) rfl

theorem Forks.up_notMem {base target : Path} {common above below : List Step}
    (forks : Forks base.steps target.steps common above below) (hbase : base.IsClean)
    (htarget : target.IsClean) (hups : base.steps.count .up ≤ target.steps.count .up) :
    Step.up ∉ above := by
  intro hup
  rw [IsClean, forks.left, List.reverse_append] at hbase
  rw [IsClean, forks.right, List.reverse_append] at htarget
  rw [forks.left, forks.right, List.count_append, List.count_append] at hups
  have hup' : Step.up ∈ below := by
    have : 1 ≤ above.count .up := List.one_le_count_iff.2 hup
    exact List.one_le_count_iff.1 (by omega)
  obtain ⟨s, above, rfl⟩ := List.exists_cons_of_ne_nil (List.ne_nil_of_mem hup)
  obtain ⟨t, below, rfl⟩ := List.exists_cons_of_ne_nil (List.ne_nil_of_mem hup')
  exact forks.apart s rfl t rfl ((hbase.head_up hup).trans (htarget.head_up hup').symm)

theorem count_up_le_join {base target : Path} (hrooted : base.rooted = (base.join target).rooted) :
    base.clean.steps.count .up ≤ (base.join target).clean.steps.count .up := by
  rw [← List.count_reverse, ← List.count_reverse (l := (base.join target).clean.steps)]
  by_cases htarget : target.rooted = true
  · have base_rooted : base.clean.rooted = true := by
      rw [show base.clean.rooted = base.rooted from rfl, hrooted, join, if_pos htarget, htarget]
    rw [List.count_eq_zero.2 (base.clean_isClean.below_root base_rooted)]
    exact Nat.zero_le _
  · rw [join, if_neg htarget, clean_append]
    exact count_up_le_foldl _ _ _

theorem clean_join_way {base target : Path} {common above below : List Step}
    (hrooted : target.rooted = base.rooted) (htarget : target.IsClean)
    (forks : Forks base.clean.steps target.steps common above below)
    (hups : base.clean.steps.count .up ≤ target.steps.count .up) :
    (base.join ⟨false, List.replicate above.length .up ++ below⟩).clean = target := by
  have above_down : Step.up ∉ above.reverse := by
    rw [List.mem_reverse]
    exact forks.up_notMem base.clean_isClean htarget hups
  have back : (List.replicate above.length Step.up).foldl (pushStep base.rooted)
      (above.reverse ++ common.reverse) = common.reverse := by
    rw [← List.length_reverse, foldl_ups base.rooted above_down]
  have down : below.foldl (pushStep base.rooted) common.reverse = target.steps.reverse := by
    rw [IsClean, hrooted, forks.right, List.reverse_append] at htarget
    rw [htarget.foldl_eq, forks.right, List.reverse_append]
  have steps_eq :
      (base.join ⟨false, List.replicate above.length .up ++ below⟩).clean.steps.reverse =
        target.steps.reverse := by
    calc _ = (List.replicate above.length Step.up ++ below).foldl (pushStep base.rooted)
          base.clean.steps.reverse := clean_append _ _ _
      _ = target.steps.reverse := by
          rw [forks.left, List.reverse_append, List.foldl_append, back, down]
  obtain ⟨rooted, steps⟩ := target
  exact congr (congrArg Path.mk hrooted.symm) (List.reverse_inj.1 steps_eq)

def way (base target : Path) : List String :=
  List.replicate (base.parts.length - commonLength base.parts target.parts) ".." ++
    target.parts.drop (commonLength base.parts target.parts)

theorem relative_eq (base target : Path) :
    base.relative target =
      if base.rooted ≠ (base.join target).rooted then (base.join target).clean.text
      else if (way base.clean (base.join target).clean).isEmpty then "."
      else "/".intercalate (way base.clean (base.join target).clean) := rfl

theorem ofText_way {parts : List String} (h : ∀ part ∈ parts, IsPart part) :
    ofText (if parts.isEmpty then "." else "/".intercalate parts) = ⟨false, stepsOf parts⟩ := by
  by_cases hparts : parts = []
  · subst hparts
    decide
  · rw [if_neg (by simpa using hparts), ofText_intercalate hparts h]

theorem commonLength_append (start as bs : List String) :
    commonLength (start ++ as) (start ++ bs) = start.length + commonLength as bs := by
  induction start with
  | nil => simp
  | cons a start ih =>
    rw [List.cons_append, List.cons_append, commonLength, if_pos rfl, ih, List.length_cons]
    omega

section way

variable {base target : Path} (hbase : ∀ s ∈ base.steps, s.Readable)
  (htarget : ∀ s ∈ target.steps, s.Readable)
include hbase htarget

theorem way_of_parts {start : List String} (hb : base.parts = start ++ base.steps.map Step.text)
    (ht : target.parts = start ++ target.steps.map Step.text) :
    ∃ common above below, Forks base.steps target.steps common above below ∧
      way base target = List.replicate above.length ".." ++ below.map Step.text := by
  obtain ⟨common, above, below, forks, hlength⟩ := commonLength_texts hbase htarget
  refine ⟨common, above, below, forks, ?_⟩
  rw [way, hb, ht, commonLength_append, hlength, forks.left, forks.right]
  have rest_length : (start ++ (common ++ above).map Step.text).length -
      (start.length + common.length) = above.length := by
    simp only [List.length_append, List.length_map]
    omega
  rw [rest_length, ← List.drop_drop, List.drop_left, List.map_append,
    List.drop_left' (List.length_map _)]

theorem way_eq (hrooted : base.rooted = target.rooted)
    (hhere : base.rooted = true ∨ base.steps ≠ [] ∨ target.steps = []) :
    ∃ common above below dot, Forks base.steps target.steps common above below ∧
      way base target = List.replicate above.length ".." ++ below.map Step.text ++ dot ∧
      (dot = [] ∨ dot = ["."]) := by
  have without_dot (start : List String) (hb : base.parts = start ++ base.steps.map Step.text)
      (ht : target.parts = start ++ target.steps.map Step.text) :
      ∃ common above below dot, Forks base.steps target.steps common above below ∧
        way base target = List.replicate above.length ".." ++ below.map Step.text ++ dot ∧
        (dot = [] ∨ dot = ["."]) := by
    obtain ⟨common, above, below, forks, hway⟩ := way_of_parts hbase htarget hb ht
    exact ⟨common, above, below, [], forks, by rw [hway, List.append_nil], .inl rfl⟩
  obtain ⟨rooted, xs⟩ := base
  obtain ⟨rooted', ys⟩ := target
  obtain rfl : rooted = rooted' := hrooted
  cases rooted with
  | true => exact without_dot ["/"] rfl rfl
  | false =>
    cases xs with
    | nil =>
      have hys : ys = [] := by simpa using hhere
      subst hys
      exact ⟨[], [], [], [], ⟨rfl, rfl, by simp⟩, by decide, .inl rfl⟩
    | cons x xs =>
      cases ys with
      | nil =>
        refine ⟨[], x :: xs, [], ["."], ⟨rfl, rfl, by simp⟩, ?_, .inr rfl⟩
        have text_ne : x.text ≠ "." := (hbase x List.mem_cons_self).text_ne rfl
        simp [way, parts, commonLength, text_ne]
      | cons y ys => exact without_dot [] rfl rfl

end way

theorem stepsOf_ups (n : Nat) : stepsOf (List.replicate n "..") = List.replicate n .up := by
  induction n with
  | zero => rfl
  | succ n ih => exact congrArg (Step.up :: ·) ih

theorem ofText_relative {base target : Path} (hbase : ∀ s ∈ base.steps, s.Readable)
    (htarget : ∀ s ∈ (base.join target).steps, s.Readable)
    (hrooted : base.rooted = (base.join target).rooted)
    (hhere : base.rooted = true ∨ base.clean.steps ≠ [] ∨ (base.join target).clean.steps = []) :
    ∃ common above below,
      Forks base.clean.steps (base.join target).clean.steps common above below ∧
      ofText (base.relative target) = ⟨false, List.replicate above.length .up ++ below⟩ := by
  have htarget' := clean_readable htarget
  obtain ⟨common, above, below, dot, forks, hway, hdot⟩ :=
    way_eq (clean_readable hbase) htarget' hrooted hhere
  have below_readable : ∀ s ∈ below, s.Readable := fun s hs =>
    htarget' s (forks.right ▸ List.mem_append_right _ hs)
  have way_parts : ∀ part ∈ way base.clean (base.join target).clean, IsPart part := by
    intro part hpart
    rw [hway, List.append_assoc] at hpart
    rcases List.mem_append.1 hpart with hpart | hpart
    · rw [List.eq_of_mem_replicate hpart]
      exact Step.Readable.up.isPart
    rcases List.mem_append.1 hpart with hpart | hpart
    · obtain ⟨s, hs, rfl⟩ := List.mem_map.1 hpart
      exact (below_readable s hs).isPart
    rcases hdot with rfl | rfl
    · exact absurd hpart List.not_mem_nil
    · rw [List.mem_singleton.1 hpart]
      exact ⟨by decide, by decide⟩
  refine ⟨common, above, below, forks, ?_⟩
  rw [relative_eq, if_neg (by simpa using hrooted), ofText_way way_parts, hway]
  have dot_says : stepsOf dot = [] := by rcases hdot with rfl | rfl <;> decide
  rw [stepsOf_append, stepsOf_append, stepsOf_ups, stepsOf_texts below_readable, dot_says,
    List.append_nil]

theorem clean_join_relative {base target : Path} (hbase : ∀ s ∈ base.steps, s.Readable)
    (htarget : ∀ s ∈ (base.join target).steps, s.Readable)
    (hhere : base.clean ≠ ⟨false, []⟩ ∨ target.rooted = true ∨
      (base.join target).clean = ⟨false, []⟩) :
    (base.join (ofText (base.relative target))).clean = (base.join target).clean := by
  by_cases hrooted : base.rooted = (base.join target).rooted
  · have hhere' : base.rooted = true ∨ base.clean.steps ≠ [] ∨
        (base.join target).clean.steps = [] := by
      rcases hhere with hhere | hhere | hhere
      · by_cases hroot : base.rooted = true
        · exact .inl hroot
        · refine .inr (.inl fun hsteps => hhere ?_)
          exact congr (congrArg Path.mk (eq_false_of_ne_true hroot)) hsteps
      · rw [join, if_pos hhere] at hrooted
        exact .inl (hrooted.trans hhere)
      · exact .inr (.inr (congrArg Path.steps hhere))
    obtain ⟨common, above, below, forks, htext⟩ := ofText_relative hbase htarget hrooted hhere'
    rw [htext]
    exact clean_join_way hrooted.symm (clean_isClean _) forks (count_up_le_join hrooted)
  · have target_rooted : target.rooted = true := by
      by_cases ht : target.rooted = true
      · exact ht
      · rw [join, if_neg ht] at hrooted
        exact absurd rfl hrooted
    have join_eq : base.join target = target := if_pos target_rooted
    rw [relative_eq, if_pos hrooted, ofText_text (clean_readable htarget), join_eq,
      join, if_pos (show target.clean.rooted = true from target_rooted),
      target.clean_isClean.clean_eq]

theorem way_from_here {steps : List Step} (h : ∀ s ∈ steps, s.Readable) (hne : steps ≠ []) :
    way ⟨false, []⟩ ⟨false, steps⟩ = (Step.up :: steps).map Step.text := by
  cases steps with
  | nil => exact absurd rfl hne
  | cons s steps =>
    have text_ne : s.text ≠ "." := (h s List.mem_cons_self).text_ne rfl
    have up_text : Step.up.text = ".." := rfl
    simp [way, parts, commonLength, Ne.symm text_ne, up_text]

theorem clean_join_relative_here {base target : Path} (hbase : base.clean = ⟨false, []⟩)
    (htarget : ∀ s ∈ (base.join target).steps, s.Readable) (hrooted : ¬ target.rooted = true)
    (hhere : (base.join target).clean ≠ ⟨false, []⟩) :
    (base.join (ofText (base.relative target))).clean ≠ (base.join target).clean := by
  have base_rooted : base.rooted = false := congrArg Path.rooted hbase
  have join_rooted : (base.join target).rooted = false := by
    rw [join, if_neg hrooted, base_rooted]
  have goal_eq : (base.join target).clean = ⟨false, (base.join target).clean.steps⟩ :=
    congrArg (Path.mk · _) join_rooted
  have readable := clean_readable htarget
  have isClean := (base.join target).clean_isClean
  rw [relative_eq, if_neg (by simp [base_rooted, join_rooted]), hbase]
  rw [goal_eq] at hhere isClean ⊢
  generalize (base.join target).clean.steps = steps at *
  have steps_ne : steps ≠ [] := fun hsteps => hhere (by rw [hsteps])
  have all_readable : ∀ s ∈ Step.up :: steps, s.Readable := by
    intro s hs
    rcases List.mem_cons.1 hs with rfl | hs
    · exact .up
    · exact readable s hs
  have way_parts : ∀ part ∈ (Step.up :: steps).map Step.text, IsPart part := by
    intro part hpart
    obtain ⟨s, hs, rfl⟩ := List.mem_map.1 hpart
    exact (all_readable s hs).isPart
  rw [way_from_here readable steps_ne, ofText_way way_parts, stepsOf_texts all_readable]
  have settled : Settled false (steps.reverse ++ [.up]) := by
    refine ⟨List.pairwise_append.2 ⟨isClean.ups_first, List.pairwise_singleton _ _, ?_⟩, ?_⟩
    · intro t _ s hs _
      exact List.mem_singleton.1 hs
    · exact fun h => absurd h Bool.false_ne_true
  have steps_eq :
      (base.join ⟨false, .up :: steps⟩).clean.steps.reverse = steps.reverse ++ [.up] := by
    calc _ = (Step.up :: steps).foldl (pushStep base.rooted) base.clean.steps.reverse :=
          clean_append _ _ _
      _ = steps.foldl (pushStep false) [.up] := by
          rw [hbase, base_rooted]
          rfl
      _ = steps.reverse ++ [.up] := settled.foldl_eq
  intro heq
  rw [heq] at steps_eq
  have lengths := congrArg List.length steps_eq
  simp at lengths

end Path

theorem cleanedPath_eq_here_iff {s : String} :
    cleanedPath s = "." ↔ (Path.ofText s).clean = ⟨false, []⟩ := by
  rw [show "." = cleanedPath "." by decide, cleanedPath_eq_iff,
    show (Path.ofText ".").clean = ⟨false, []⟩ by decide]

/-- The way from a base leads back to its target, unless the base says nothing and the target says
something and is not rooted. -/
theorem relativePath_leads_back_iff (base target : String) :
    cleanedPath (Command.joinName base (relativePath base target)) =
        cleanedPath (Command.joinName base target) ↔
      cleanedPath base ≠ "." ∨ Command.isRooted target = true ∨
        cleanedPath (Command.joinName base target) = "." := by
  have joined_readable := Path.ofText_readable (Command.joinName base target)
  rw [Path.ofText_joinName] at joined_readable
  rw [cleanedPath_eq_iff, ne_eq, cleanedPath_eq_here_iff, cleanedPath_eq_here_iff,
    Path.ofText_joinName, Path.ofText_joinName]
  constructor
  · intro h
    by_cases hbase : (Path.ofText base).clean = ⟨false, []⟩
    · by_cases hrooted : Command.isRooted target = true
      · exact .inr (.inl hrooted)
      · refine .inr (.inr (Classical.byContradiction fun hhere => ?_))
        exact Path.clean_join_relative_here hbase joined_readable hrooted hhere h
    · exact .inl hbase
  · exact Path.clean_join_relative (Path.ofText_readable base) joined_readable

/-- From the directory that a dot names the way to a file in it leads out of the directory. -/
theorem relativePath_leads_astray :
    ¬ ∀ base target, cleanedPath (Command.joinName base (relativePath base target)) =
      cleanedPath (Command.joinName base target) := by
  intro h
  exact absurd (h "." "x") (by decide)

end DocTree
