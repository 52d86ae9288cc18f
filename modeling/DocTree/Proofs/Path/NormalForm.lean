import DocTree.Command.Run
import DocTree.Proofs.Path.Relative

/-!
# The normal form of a way

From a rooted base every way has one normal form: as few steps up as there can be, and then names
only. Two targets have the same way just when they are the same path from the base, and the way
to where a way leads is that way itself. The directory that file names are made relative to is
rooted wherever the command runs.
-/
namespace DocTree

structure Path.IsName (name : String) : Prop extends Path.IsPart name where
  ne_dot : name ≠ "."
  ne_up : name ≠ ".."

theorem Step.Readable.isName {s : Step} (h : s.Readable) (hne : s ≠ .up) : Path.IsName s.text where
  toIsPart := h.isPart
  ne_dot := h.text_ne rfl
  ne_up htext := hne (h.text_injective .up htext)

namespace Path

theorem IsName.stepOfPart_eq {name : String} (h : IsName name) :
    stepOfPart name.toList = some (.into name) := by
  unfold stepOfPart
  split
  · rename_i empty
    exact absurd (String.toList_eq_nil_iff.1 empty) h.ne_empty
  · rename_i dot
    exact absurd (String.toList_inj.1 dot) h.ne_dot
  · rename_i up
    exact absurd (String.toList_inj.1 up) h.ne_up
  · rw [String.ofList_toList]

theorem stepsOf_names {names : List String} (h : ∀ name ∈ names, IsName name) :
    stepsOf names = names.map .into := by
  induction names with
  | nil => rfl
  | cons name names ih =>
    rw [stepsOf, List.filterMap_cons, (h name List.mem_cons_self).stepOfPart_eq, List.map_cons]
    exact congrArg (.into name :: ·) (ih fun n hn => h n (List.mem_cons_of_mem _ hn))

def wayText (ups : Nat) (names : List String) : String :=
  let parts := List.replicate ups ".." ++ names
  if parts.isEmpty then "." else "/".intercalate parts

theorem ofText_wayText (ups : Nat) {names : List String} (h : ∀ name ∈ names, IsName name) :
    ofText (wayText ups names) = ⟨false, List.replicate ups .up ++ names.map .into⟩ := by
  have parts : ∀ part ∈ List.replicate ups ".." ++ names, IsPart part := by
    intro part hpart
    rcases List.mem_append.1 hpart with hpart | hpart
    · rw [List.eq_of_mem_replicate hpart]
      exact Step.Readable.up.isPart
    · exact (h part hpart).toIsPart
  rw [wayText, ofText_way parts, stepsOf_append, stepsOf_ups, stepsOf_names h]

theorem join_rooted {base : Path} (h : base.rooted = true) (target : Path) :
    (base.join target).rooted = true := by
  by_cases htarget : target.rooted = true
  · rw [join, if_pos htarget, htarget]
  · rw [join, if_neg htarget, h]

theorem relative_rooted {base : Path} (h : base.rooted = true) (target : Path) :
    base.relative target =
      if (way base.clean (base.join target).clean).isEmpty then "."
      else "/".intercalate (way base.clean (base.join target).clean) := by
  rw [relative_eq, if_neg (by simp [h, join_rooted h])]

theorem relative_eq_wayText {base target : Path} (hrooted : base.rooted = true)
    (hbase : ∀ s ∈ base.steps, s.Readable) (htarget : ∀ s ∈ (base.join target).steps, s.Readable) :
    ∃ common above below,
      Forks base.clean.steps (base.join target).clean.steps common above below ∧
      base.relative target = wayText above.length (below.map Step.text) := by
  have parts_of_rooted {p : Path} (hp : p.rooted = true) :
      p.clean.parts = ["/"] ++ p.clean.steps.map Step.text := by
    rw [show p.clean = ⟨true, p.clean.steps⟩ from congrArg (Path.mk · _) hp]
    rfl
  obtain ⟨common, above, below, forks, hway⟩ :=
    way_of_parts (clean_readable hbase) (clean_readable htarget) (parts_of_rooted hrooted)
      (parts_of_rooted (join_rooted hrooted target))
  refine ⟨common, above, below, forks, ?_⟩
  rw [relative_rooted hrooted, hway]
  rfl

theorem settled_of_up_notMem {rooted : Bool} {done : List Step} (h : Step.up ∉ done) :
    Settled rooted done where
  ups_first := List.pairwise_iff_forall_sublist.2 fun hsub hup =>
    absurd (hup ▸ hsub.subset List.mem_cons_self) h
  below_root _ := h

theorem IsClean.up_notMem {p : Path} (h : p.IsClean) (hrooted : p.rooted = true) :
    Step.up ∉ p.steps :=
  fun hup => h.below_root hrooted (List.mem_reverse.2 hup)

theorem Forks.length_le {base target : Path} {common above below names : List Step} {ups : Nat}
    (forks : Forks base.clean.steps target.steps common above below)
    (hbase : Step.up ∉ base.clean.steps) (hnames : Step.up ∉ names)
    (h : (base.join ⟨false, List.replicate ups .up ++ names⟩).clean = target) :
    above.length ≤ ups := by
  refine Nat.le_of_not_lt fun hlt => ?_
  obtain ⟨kept, left, rfl, hleft⟩ : ∃ kept left, above = kept ++ left ∧ left.length = ups :=
    ⟨above.take (above.length - ups), above.drop (above.length - ups),
      (List.take_append_drop _ _).symm, by rw [List.length_drop]; omega⟩
  rw [forks.left, List.mem_append, List.mem_append, not_or, not_or] at hbase
  have back : (List.replicate ups Step.up).foldl (pushStep base.rooted)
      (left.reverse ++ (common ++ kept).reverse) = (common ++ kept).reverse := by
    rw [← hleft, ← List.length_reverse, foldl_ups _ (by rw [List.mem_reverse]; exact hbase.2.2)]
  have down : names.foldl (pushStep base.rooted) (common ++ kept).reverse =
      names.reverse ++ (common ++ kept).reverse := by
    refine Settled.foldl_eq (settled_of_up_notMem ?_)
    simp only [List.mem_append, List.mem_reverse, not_or]
    exact ⟨hnames, hbase.1, hbase.2.1⟩
  have steps_eq : target.steps.reverse = names.reverse ++ (common ++ kept).reverse := by
    calc target.steps.reverse
        = (List.replicate ups Step.up ++ names).foldl (pushStep base.rooted)
            base.clean.steps.reverse := by rw [← h]; exact clean_append _ _ _
      _ = names.reverse ++ (common ++ kept).reverse := by
          rw [forks.left, ← List.append_assoc, List.reverse_append, List.foldl_append, back, down]
  have below_eq : below = kept ++ names := by
    rw [← List.reverse_append, List.reverse_inj, forks.right, List.append_assoc] at steps_eq
    exact List.append_cancel_left steps_eq
  obtain ⟨a, kept, rfl⟩ := List.exists_cons_of_length_pos (l := kept) (by
    rw [List.length_append] at hlt
    omega)
  exact forks.apart a rfl a (by rw [below_eq]; rfl) rfl

theorem Forks.map {α β : Type} {f : α → β} {xs ys common above below : List α}
    (h : Forks xs ys common above below)
    (hf : ∀ a ∈ above, ∀ b ∈ below, f a = f b → a = b) :
    Forks (xs.map f) (ys.map f) (common.map f) (above.map f) (below.map f) where
  left := by rw [h.left, List.map_append]
  right := by rw [h.right, List.map_append]
  apart := by
    rw [List.head?_map, List.head?_map]
    intro a' ha' b' hb' heq
    obtain ⟨a, ha, rfl⟩ := Option.map_eq_some_iff.1 ha'
    obtain ⟨b, hb, rfl⟩ := Option.map_eq_some_iff.1 hb'
    exact h.apart a ha b hb (hf a (List.mem_of_head? ha) b (List.mem_of_head? hb) heq)

end Path

def cleanedParts (s : String) : List String := (Path.ofText s).clean.steps.map Step.text

/-- The way goes up to where base and target part, then into names. No other way that leads to the
target goes up less often. -/
def HasNormalWay (base target : String) : Prop :=
  ∃ common above below,
    Path.Forks (cleanedParts base) (cleanedParts (Command.joinName base target)) common above
      below ∧
    (∀ name ∈ below, Path.IsName name) ∧
    relativePath base target = Path.wayText above.length below ∧
    ∀ ups names, (∀ name ∈ names, Path.IsName name) →
      cleanedPath (Command.joinName base (Path.wayText ups names)) =
        cleanedPath (Command.joinName base target) →
      above.length ≤ ups

structure NormalWays (base : String) : Prop where
  normal : ∀ target, HasNormalWay base target
  unique : ∀ target target', relativePath base target = relativePath base target' ↔
    cleanedPath (Command.joinName base target) = cleanedPath (Command.joinName base target')
  again : ∀ target, relativePath base (relativePath base target) = relativePath base target

namespace Path

theorem ofText_join_readable (base target : String) :
    ∀ s ∈ ((ofText base).join (ofText target)).steps, s.Readable := by
  rw [← ofText_joinName]
  exact ofText_readable _

end Path

section Rooted

variable {base : String} (hrooted : Command.isRooted base = true) (target : String)
include hrooted

theorem hasNormalWay_of_rooted : HasNormalWay base target := by
  have base_readable := Path.ofText_readable base
  have target_readable := Path.ofText_join_readable base target
  obtain ⟨common, above, below, forks, htext⟩ :=
    Path.relative_eq_wayText hrooted base_readable target_readable
  have base_names : Step.up ∉ (Path.ofText base).clean.steps :=
    (Path.clean_isClean _).up_notMem hrooted
  have target_names : Step.up ∉ ((Path.ofText base).join (Path.ofText target)).clean.steps :=
    (Path.clean_isClean _).up_notMem (Path.join_rooted hrooted _)
  have above_readable : ∀ s ∈ above, s.Readable := fun s hs =>
    Path.clean_readable base_readable s (forks.left ▸ List.mem_append_right _ hs)
  have below_readable : ∀ s ∈ below, s.Readable := fun s hs =>
    Path.clean_readable target_readable s (forks.right ▸ List.mem_append_right _ hs)
  refine ⟨common.map Step.text, above.map Step.text, below.map Step.text, ?forks, ?names, ?text,
    ?least⟩
  case forks =>
    rw [cleanedParts, cleanedParts, Path.ofText_joinName]
    exact forks.map fun a ha b hb => (above_readable a ha).text_injective (below_readable b hb)
  case names =>
    intro name hname
    obtain ⟨s, hs, rfl⟩ := List.mem_map.1 hname
    refine (below_readable s hs).isName fun hup => target_names ?_
    rw [forks.right, ← hup]
    exact List.mem_append_right _ hs
  case text => rw [List.length_map, ← htext, relativePath]
  case least =>
    intro ups names hnames hsame
    rw [cleanedPath_eq_iff, Path.ofText_joinName, Path.ofText_joinName,
      Path.ofText_wayText ups hnames] at hsame
    rw [List.length_map]
    exact forks.length_le base_names (by simp) hsame

theorem cleanedPath_joinName_relativePath :
    cleanedPath (Command.joinName base (relativePath base target)) =
      cleanedPath (Command.joinName base target) := by
  rw [cleanedPath_eq_iff, Path.ofText_joinName, Path.ofText_joinName]
  refine Path.clean_join_relative (Path.ofText_readable base)
    (Path.ofText_join_readable base target) (.inl fun here => ?_)
  have unrooted : (Path.ofText base).rooted = false := congrArg Path.rooted here
  exact absurd (hrooted.symm.trans unrooted) (by decide)

theorem relativePath_congr {target target' : String}
    (h : cleanedPath (Command.joinName base target) = cleanedPath (Command.joinName base target')) :
    relativePath base target = relativePath base target' := by
  rw [cleanedPath_eq_iff, Path.ofText_joinName, Path.ofText_joinName] at h
  rw [relativePath, relativePath, Path.relative_rooted hrooted, Path.relative_rooted hrooted, h]

theorem relativePath_eq_iff (target' : String) :
    relativePath base target = relativePath base target' ↔
      cleanedPath (Command.joinName base target) = cleanedPath (Command.joinName base target') := by
  constructor
  · intro h
    rw [← cleanedPath_joinName_relativePath hrooted target, h,
      cleanedPath_joinName_relativePath hrooted target']
  · exact relativePath_congr hrooted

theorem relativePath_again :
    relativePath base (relativePath base target) = relativePath base target :=
  relativePath_congr hrooted (cleanedPath_joinName_relativePath hrooted target)

end Rooted

theorem isRooted_directoryFrom {here : String} (h : Command.isRooted here = true)
    (directory : Option String) :
    Command.isRooted (Command.directoryFrom here directory) = true := by
  cases directory with
  | none => exact h
  | some d =>
    have joined : (Path.ofText (Command.joinName here d)).rooted = true := by
      rw [Path.ofText_joinName]
      exact Path.join_rooted h _
    exact joined

/-- The ways from a rooted base have a unique normal form, and the directory that file names are
made relative to is rooted, whatever is given for it. -/
theorem normalWays_of_rooted :
    (∀ base, Command.isRooted base = true → NormalWays base) ∧
    ∀ here, Command.isRooted here = true → ∀ directory,
      Command.isRooted (Command.directoryFrom here directory) = true :=
  ⟨fun _ hrooted => ⟨hasNormalWay_of_rooted hrooted, relativePath_eq_iff hrooted,
    relativePath_again hrooted⟩, fun _ => isRooted_directoryFrom⟩

theorem normalWays_of_rooted_sibling :
    Command.isRooted "/work/project" = true ∧ NormalWays "/work/project" ∧
    relativePath "/work/project" "./../other//b.ts" = "../other/b.ts" ∧
    relativePath "/work/project" "../other/b.ts" = "../other/b.ts" ∧
    Command.isRooted (Command.directoryFrom "/work" (some "project")) = true := by
  have ways : NormalWays "/work/project" := normalWays_of_rooted.1 _ (by decide)
  have sibling : relativePath "/work/project" "./../other//b.ts" = "../other/b.ts" := by decide
  refine ⟨by decide, ways, sibling, ?_, normalWays_of_rooted.2 "/work" (by decide) _⟩
  rw [← sibling, ways.again]

end DocTree
