import DocTree.Proofs.Comment.TagEdits
import Mathlib.Data.List.DropRight
import Mathlib.Data.List.Forall2

/-!
# The lines of the tags

Behind the short and the long text the documentation of a comment has a blank line and then a
passage for each tag that documents, in their order. A passage is the name of the tag and its
text, without the blanks at its end. It is one line when neither the name nor what is left of
the text breaks the line; no other line feeds are taken away, so a text of several lines keeps
them, with the blanks at their ends.
-/
namespace DocTree

namespace Text

theorem trimEndChars_last (cs : List Char) :
    ∀ c ∈ (trimEndChars cs).getLast?, isBlank c = false := by
  intro c hc
  obtain ⟨hne, rfl⟩ := List.mem_getLast?_eq_getLast hc
  have last := List.rdropWhile_last_not isBlank cs hne
  exact eq_false_of_ne_true last

theorem trimEndChars_cut (cs : List Char) :
    ∃ blanks, (∀ c ∈ blanks, isBlank c = true) ∧ trimEndChars cs ++ blanks = cs :=
  ⟨cs.rtakeWhile isBlank, fun _ hc => List.mem_rtakeWhile_imp hc,
    List.rdropWhile_append_rtakeWhile ..⟩

theorem trimEndChars_append {ys : List Char} (h : trimEndChars ys ≠ []) (xs : List Char) :
    trimEndChars (xs ++ ys) = xs ++ trimEndChars ys := by
  have kept : ys.reverse.dropWhile isBlank ≠ [] := fun h' => h (by rw [trimEndChars, h']; rfl)
  simp [trimEndChars, List.dropWhile_append, kept]

theorem trimEndChars_append_blank {ys : List Char} (h : trimEndChars ys = []) (xs : List Char) :
    trimEndChars (xs ++ ys) = trimEndChars xs := by
  have dropped : ys.reverse.dropWhile isBlank = [] := List.reverse_eq_nil_iff.1 h
  simp only [trimEndChars, List.reverse_append, List.dropWhile_append, dropped, List.isEmpty_nil,
    if_true]

theorem prefix_trimEndChars_iff (cs : List Char) :
    cs <+: trimEndChars cs ↔ trimEndChars cs = cs := by
  constructor
  · intro h
    exact (h.eq_of_length_le (trimEndChars_isPrefix cs).length_le).symm
  · intro h
    simp [h]

def lines (cs : List Char) : List (List Char) := cs.splitOn '\n'

theorem lines_append (xs ys : List Char) : lines (xs ++ '\n' :: ys) = lines xs ++ lines ys :=
  List.splitOnP_append_cons xs ys (beq_self_eq_true '\n')

theorem lines_of_notMem {cs : List Char} (h : '\n' ∉ cs) : lines cs = [cs] :=
  List.splitOn_eq_singleton h

theorem lines_ne_nil (cs : List Char) : lines cs ≠ [] := List.splitOn_ne_nil _ _

theorem length_lines_pos (cs : List Char) : 0 < (lines cs).length :=
  List.length_pos_of_ne_nil (lines_ne_nil cs)

theorem notMem_of_length_lines {cs : List Char} (h : (lines cs).length = 1) : '\n' ∉ cs := by
  intro hmem
  obtain ⟨xs, ys, rfl⟩ := List.append_of_mem hmem
  rw [lines_append, List.length_append] at h
  have before := length_lines_pos xs
  have behind := length_lines_pos ys
  omega

theorem lines_intercalate {passages : List (List Char)} (hne : passages ≠ []) :
    lines (['\n'].intercalate passages) = passages.flatMap lines := by
  induction passages with
  | nil => exact absurd rfl hne
  | cons first others ih =>
    cases others with
    | nil => simp
    | cons next others =>
      have behind := ih (List.cons_ne_nil next others)
      rw [List.intercalate_cons_cons, List.append_assoc, List.singleton_append, lines_append,
        behind]
      exact List.flatMap_cons.symm

theorem length_le_flatMap_lines (passages : List (List Char)) :
    passages.length ≤ (passages.flatMap lines).length := by
  induction passages with
  | nil => exact Nat.le_refl _
  | cons first others ih =>
    have here := length_lines_pos first
    rw [List.flatMap_cons, List.length_append, List.length_cons]
    omega

theorem lines_of_length_eq {passages : List (List Char)}
    (h : (passages.flatMap lines).length = passages.length) : ∀ p ∈ passages, '\n' ∉ p := by
  induction passages with
  | nil => exact fun p hp => absurd hp List.not_mem_nil
  | cons first others ih =>
    have here := length_lines_pos first
    have behind := length_le_flatMap_lines others
    rw [List.flatMap_cons, List.length_append, List.length_cons] at h
    exact List.forall_mem_cons.2 ⟨notMem_of_length_lines (by omega), ih (by omega)⟩

theorem flatMap_lines_of_notMem {passages : List (List Char)} (h : ∀ p ∈ passages, '\n' ∉ p) :
    passages.flatMap lines = passages := by
  induction passages with
  | nil => rfl
  | cons first others ih =>
    obtain ⟨here, behind⟩ := List.forall_mem_cons.1 h
    rw [List.flatMap_cons, lines_of_notMem here, ih behind, List.singleton_append]

end Text

namespace Tag

def full (t : Tag) : List Char := '@' :: t.name.toList ++ ' ' :: t.text.toList

/-- A passage says all of the tag but blanks at the end, and does not end in a blank itself. -/
structure Passage (t : Tag) (p : List Char) : Prop where
  full : ∃ blanks, (∀ c ∈ blanks, Text.isBlank c = true) ∧ p ++ blanks = t.full
  trimmed : ∀ c ∈ p.getLast?, Text.isBlank c = false

structure CleanLine (t : Tag) (line : List Char) : Prop where
  named : '@' :: t.name.toList <+: line
  trimmed : ∀ c ∈ line.getLast?, Text.isBlank c = false

structure FitsLine (t : Tag) : Prop where
  name : '\n' ∉ t.name.toList
  text : '\n' ∉ (Text.trimEnd t.text).toList
  named : Text.trimEnd t.text = "" → Text.trimEnd t.name = t.name

theorem toList_line (t : Tag) : t.line.toList = Text.trimEndChars t.full := by
  simp [line, full, Text.trimEnd]

theorem line_passage (t : Tag) : t.Passage t.line.toList := by
  rw [toList_line]
  exact ⟨Text.trimEndChars_cut t.full, Text.trimEndChars_last t.full⟩

theorem line_of_text {t : Tag} (h : Text.trimEndChars t.text.toList ≠ []) :
    t.line.toList = '@' :: t.name.toList ++ ' ' :: Text.trimEndChars t.text.toList := by
  have split : t.full = ('@' :: t.name.toList ++ [' ']) ++ t.text.toList := by simp [full]
  rw [toList_line, split, Text.trimEndChars_append h]
  simp

theorem line_of_blank {t : Tag} (h : Text.trimEndChars t.text.toList = []) :
    t.line.toList = '@' :: Text.trimEndChars t.name.toList := by
  have blank : Text.trimEndChars [' '] = [] := by decide
  have split : t.full = (('@' :: t.name.toList) ++ [' ']) ++ t.text.toList := by simp [full]
  rw [toList_line, split, Text.trimEndChars_append_blank h, Text.trimEndChars_append_blank blank]
  by_cases hname : Text.trimEndChars t.name.toList = []
  · have sign : Text.trimEndChars ['@'] = ['@'] := by decide
    have marked := Text.trimEndChars_append_blank hname ['@']
    rw [List.singleton_append, sign] at marked
    rw [marked, hname]
  · exact Text.trimEndChars_append hname ['@']

theorem fitsLine_iff (t : Tag) :
    t.FitsLine ↔ '\n' ∉ t.line.toList ∧ '@' :: t.name.toList <+: t.line.toList := by
  by_cases hblank : Text.trimEndChars t.text.toList = []
  · -- only the name is left, and it is whole just when it does not end in a blank
    have text_blank : Text.trimEnd t.text = "" := by rw [Text.trimEnd, hblank]
    have name_iff : Text.trimEnd t.name = t.name ↔
        Text.trimEndChars t.name.toList = t.name.toList := by
      rw [Text.trimEnd, ← String.toList_inj, String.toList_ofList]
    rw [line_of_blank hblank, List.cons_prefix_cons, Text.prefix_trimEndChars_iff]
    constructor
    · intro h
      have name_eq := name_iff.1 (h.named text_blank)
      exact ⟨by simpa [name_eq] using h.name, rfl, name_eq⟩
    · rintro ⟨hline, -, name_eq⟩
      exact ⟨by simpa [name_eq] using hline, by simp [text_blank], fun _ => name_iff.2 name_eq⟩
  · have text_ne : Text.trimEnd t.text ≠ "" := by simpa [Text.trimEnd] using hblank
    have named : '@' :: t.name.toList <+: t.line.toList := by
      rw [line_of_text hblank]
      exact List.prefix_append ..
    have kept : '\n' ∉ t.line.toList ↔
        '\n' ∉ t.name.toList ∧ '\n' ∉ (Text.trimEnd t.text).toList := by
      simp [line_of_text hblank, Text.trimEnd]
    rw [kept]
    exact ⟨fun h => ⟨⟨h.name, h.text⟩, named⟩,
      fun h => ⟨h.1.1, h.1.2, fun h' => absurd h' text_ne⟩⟩

end Tag

namespace Comment

def lead (c : Comment) : String :=
  c.shortText ++ if c.text.isEmpty then "" else "\n\n" ++ c.text

def remaining (c : Comment) : List Tag := c.tags.filter fun t => ¬ t.StatesFact

def HasBlock (c : Comment) (block : List Char) : Prop :=
  c.documentation.toList = c.lead.toList ++ '\n' :: '\n' :: block

theorem hasBlock (c : Comment) (h : c.remaining ≠ []) :
    c.HasBlock (['\n'].intercalate (c.remaining.map fun t => t.line.toList)) := by
  have same : Tag.isDocumentation = fun t => decide ¬ t.StatesFact := funext Tag.isDocumentation_eq
  have lines_eq : (c.tags.filter Tag.isDocumentation).map Tag.line = c.remaining.map Tag.line := by
    rw [same]
    rfl
  have some_line : (c.remaining.map Tag.line).isEmpty = false := by simpa using h
  rw [HasBlock, documentation, lead]
  simp [lines_eq, some_line, Function.comp_def]

theorem HasBlock.unique {c : Comment} {block block' : List Char} (h : c.HasBlock block)
    (h' : c.HasBlock block') : block = block' := by
  have texts_eq := List.append_cancel_left (h.symm.trans h')
  exact (List.cons.inj (List.cons.inj texts_eq).2).2

theorem lines_clean_iff (tags : List Tag) (hne : tags ≠ []) :
    List.Forall₂ Tag.CleanLine tags
        (Text.lines (['\n'].intercalate (tags.map fun t => t.line.toList))) ↔
      ∀ t ∈ tags, t.FitsLine := by
  rw [Text.lines_intercalate (by simpa using hne)]
  constructor
  · intro h
    have length_eq := h.length_eq
    have unbroken := Text.lines_of_length_eq (length_eq.symm.trans (List.length_map _).symm)
    rw [Text.flatMap_lines_of_notMem unbroken] at h
    intro t ht
    rw [List.forall₂_map_right_iff, List.forall₂_same] at h
    exact t.fitsLine_iff.2 ⟨unbroken _ (List.mem_map_of_mem ht), (h t ht).named⟩
  · intro h
    have unbroken : ∀ p ∈ tags.map fun t => t.line.toList, '\n' ∉ p := by
      intro p hp
      obtain ⟨t, ht, rfl⟩ := List.mem_map.1 hp
      exact (t.fitsLine_iff.1 (h t ht)).1
    rw [Text.flatMap_lines_of_notMem unbroken, List.forall₂_map_right_iff, List.forall₂_same]
    intro t ht
    exact ⟨(t.fitsLine_iff.1 (h t ht)).2, t.line_passage.trimmed⟩

/-- Behind the short and the long text there is a blank line and then a passage for each tag that
documents. Their lines are one clean line for each tag just when every tag fits a line. -/
theorem tag_block_clean_iff (c : Comment) (h : ∃ t ∈ c.tags, ¬ t.StatesFact) :
    ∃ passages block, c.HasBlock block ∧ List.Forall₂ Tag.Passage c.remaining passages ∧
      block = ['\n'].intercalate passages ∧
      (List.Forall₂ Tag.CleanLine c.remaining (Text.lines block) ↔
        ∀ t ∈ c.tags, ¬ t.StatesFact → t.FitsLine) := by
  have hne : c.remaining ≠ [] := by
    obtain ⟨t, ht, hfact⟩ := h
    exact List.ne_nil_of_mem (List.mem_filter.2 ⟨ht, decide_eq_true hfact⟩)
  have every_iff : (∀ t ∈ c.remaining, t.FitsLine) ↔
      ∀ t ∈ c.tags, ¬ t.StatesFact → t.FitsLine := by
    simp [remaining]
  have passages : List.Forall₂ Tag.Passage c.remaining
      (c.remaining.map fun t => t.line.toList) := by
    rw [List.forall₂_map_right_iff, List.forall₂_same]
    exact fun t _ => t.line_passage
  exact ⟨_, _, c.hasBlock hne, passages, rfl, (lines_clean_iff _ hne).trans every_iff⟩

theorem tag_block_clean_iff_notes :
    let c : Comment :=
      ⟨"S", "T", [⟨"see", "b\n"⟩, ⟨"default", "1"⟩, ⟨"example", "f()"⟩, ⟨"internal", ""⟩]⟩
    (∃ t ∈ c.tags, ¬ t.StatesFact) ∧
      (∃ block, c.HasBlock block ∧ List.Forall₂ Tag.CleanLine c.remaining (Text.lines block)) ∧
      c.documentation = "S\n\nT\n\n@see b\n@example f()\n@internal" := by
  intro c
  have some_left : ∃ t ∈ c.tags, ¬ t.StatesFact := ⟨⟨"see", "b\n"⟩, by decide, by decide⟩
  obtain ⟨_, block, hblock, -, -, clean_iff⟩ := c.tag_block_clean_iff some_left
  have fits : ∀ t ∈ c.tags, t.FitsLine := by
    have see_fits : Tag.FitsLine ⟨"see", "b\n"⟩ := ⟨by decide, by decide, by decide⟩
    have default_fits : Tag.FitsLine ⟨"default", "1"⟩ := ⟨by decide, by decide, by decide⟩
    have example_fits : Tag.FitsLine ⟨"example", "f()"⟩ := ⟨by decide, by decide, by decide⟩
    have internal_fits : Tag.FitsLine ⟨"internal", ""⟩ := ⟨by decide, by decide, by decide⟩
    simp [c, see_fits, default_fits, example_fits, internal_fits]
  have clean := clean_iff.2 fun t ht _ => fits t ht
  exact ⟨some_left, ⟨block, hblock, clean⟩, by decide +kernel⟩

/-- A text of two lines gives two lines, and the first one keeps the blanks at its end. -/
theorem tag_block_torn :
    let c : Comment := ⟨"S", "", [⟨"example", "a  \nb"⟩]⟩
    c.documentation = "S\n\n@example a  \nb" ∧
      ¬ ∃ block, c.HasBlock block ∧ List.Forall₂ Tag.CleanLine c.remaining (Text.lines block) := by
  intro c
  have documentation_eq : c.documentation = "S\n\n@example a  \nb" := by decide +kernel
  refine ⟨documentation_eq, ?_⟩
  rintro ⟨block, hblock, hclean⟩
  have shown : c.HasBlock "@example a  \nb".toList := by
    rw [HasBlock, documentation_eq]
    decide
  rw [hblock.unique shown] at hclean
  exact absurd hclean.length_eq (by decide)

end Comment

end DocTree
