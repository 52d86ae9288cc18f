import DocTree.Command.FileName

/-!
# The text of a path

A path is read from the parts between its slashes. A step that a path has is read back from its
own text, so a path that is written from such steps is read as these steps. Joining two texts
joins the paths that they stand for.
-/
namespace DocTree

namespace Path

theorem splitSlash_ne_nil (cs : List Char) : splitSlash cs ≠ [] := by
  cases cs with
  | nil => simp [splitSlash]
  | cons c cs =>
    rw [splitSlash]
    split <;> (try split) <;> simp

theorem splitSlash_append (xs ys : List Char) :
    splitSlash (xs ++ '/' :: ys) = splitSlash xs ++ splitSlash ys := by
  induction xs with
  | nil =>
    obtain ⟨part, parts, h⟩ := List.exists_cons_of_ne_nil (splitSlash_ne_nil ys)
    simp [splitSlash, h]
  | cons x xs ih =>
    obtain ⟨part, parts, h⟩ := List.exists_cons_of_ne_nil (splitSlash_ne_nil xs)
    rw [List.cons_append, splitSlash, ih, splitSlash, h]
    by_cases hx : x = '/' <;> simp [hx]

theorem splitSlash_of_notMem {cs : List Char} (h : '/' ∉ cs) : splitSlash cs = [cs] := by
  induction cs with
  | nil => rfl
  | cons c cs ih =>
    rw [List.mem_cons, not_or] at h
    rw [splitSlash, ih h.2]
    simp [Ne.symm h.1]

theorem slash_notMem_of_mem {cs part : List Char} (h : part ∈ splitSlash cs) : '/' ∉ part := by
  induction cs generalizing part with
  | nil => simp_all [splitSlash]
  | cons c cs ih =>
    obtain ⟨first, others, hs⟩ := List.exists_cons_of_ne_nil (splitSlash_ne_nil cs)
    rw [splitSlash, hs] at h
    rw [hs] at ih
    by_cases hc : c = '/'
    · simp only [hc, if_true] at h
      rcases List.mem_cons.1 h with rfl | h
      · exact List.not_mem_nil
      · exact ih h
    · simp only [hc, if_false] at h
      rcases List.mem_cons.1 h with rfl | h
      · rw [List.mem_cons, not_or]
        exact ⟨Ne.symm hc, ih List.mem_cons_self⟩
      · exact ih (List.mem_cons_of_mem _ h)

theorem splitSlash_intercalate {parts : List (List Char)} (hne : parts ≠ [])
    (h : ∀ part ∈ parts, '/' ∉ part) : splitSlash (['/'].intercalate parts) = parts := by
  induction parts with
  | nil => exact absurd rfl hne
  | cons part parts ih =>
    have here : splitSlash part = [part] := splitSlash_of_notMem (h part List.mem_cons_self)
    cases parts with
    | nil => rw [List.intercalate_singleton, here]
    | cons next parts =>
      have behind := ih (List.cons_ne_nil _ _) fun p hp => h p (List.mem_cons_of_mem _ hp)
      rw [List.intercalate_cons_cons, List.append_assoc, List.singleton_append, splitSlash_append,
        here, behind, List.singleton_append]

end Path

structure Path.IsPart (part : String) : Prop where
  no_slash : '/' ∉ part.toList
  ne_empty : part ≠ ""

/-- A step that is read back from its text. -/
structure Step.Readable (s : Step) : Prop where
  no_slash : '/' ∉ s.text.toList
  read : Path.stepOfPart s.text.toList = some s

namespace Step.Readable

theorem up : Step.up.Readable := ⟨by decide, rfl⟩

theorem text_injective {s s' : Step} (h : s.Readable) (h' : s'.Readable)
    (htext : s.text = s'.text) : s = s' := by
  have hread := h.read
  rw [htext, h'.read] at hread
  exact (Option.some.inj hread).symm

theorem text_ne {s : Step} (h : s.Readable) {part : String}
    (hpart : Path.stepOfPart part.toList = none) : s.text ≠ part := by
  rintro rfl
  rw [h.read] at hpart
  cases hpart

theorem isPart {s : Step} (h : s.Readable) : Path.IsPart s.text := ⟨h.no_slash, h.text_ne rfl⟩

end Step.Readable

namespace Path

theorem text_of_stepOfPart {part : List Char} {s : Step} (h : stepOfPart part = some s) :
    s.text.toList = part := by
  unfold stepOfPart at h
  split at h <;> cases h
  · rfl
  · exact String.toList_ofList

theorem ofText_readable (s : String) : ∀ step ∈ (ofText s).steps, step.Readable := by
  intro step hstep
  obtain ⟨part, hpart, hread⟩ := List.mem_filterMap.1 hstep
  have htext : step.text.toList = part := text_of_stepOfPart hread
  exact ⟨htext ▸ slash_notMem_of_mem hpart, htext.symm ▸ hread⟩

def stepsOf (parts : List String) : List Step := parts.filterMap fun part => stepOfPart part.toList

theorem stepsOf_append (parts parts' : List String) :
    stepsOf (parts ++ parts') = stepsOf parts ++ stepsOf parts' := List.filterMap_append

theorem stepsOf_texts {steps : List Step} (h : ∀ s ∈ steps, s.Readable) :
    stepsOf (steps.map Step.text) = steps := by
  induction steps with
  | nil => rfl
  | cons s steps ih =>
    have hs : stepOfPart s.text.toList = some s := (h s List.mem_cons_self).read
    rw [List.map_cons, stepsOf, List.filterMap_cons, hs]
    exact congrArg (s :: ·) (ih fun t ht => h t (List.mem_cons_of_mem _ ht))

theorem ofText_slash (s : String) : ofText ("/" ++ s) = ⟨true, (ofText s).steps⟩ := by
  have hsplit : splitSlash ('/' :: s.toList) = [] :: splitSlash s.toList :=
    splitSlash_append [] s.toList
  rw [ofText, String.toList_append, show "/".toList ++ s.toList = '/' :: s.toList from rfl, hsplit]
  rfl

theorem ofText_intercalate {parts : List String} (hne : parts ≠ [])
    (h : ∀ part ∈ parts, IsPart part) :
    ofText ("/".intercalate parts) = ⟨false, stepsOf parts⟩ := by
  have hchars : ("/".intercalate parts).toList = ['/'].intercalate (parts.map String.toList) :=
    String.toList_intercalate
  have hsplit : splitSlash (['/'].intercalate (parts.map String.toList)) =
      parts.map String.toList := by
    apply splitSlash_intercalate (by simpa using hne)
    intro part hpart
    obtain ⟨p, hp, rfl⟩ := List.mem_map.1 hpart
    exact (h p hp).no_slash
  have hrooted : ((['/'].intercalate (parts.map String.toList)).head? == some '/') = false := by
    obtain ⟨first, others, rfl⟩ := List.exists_cons_of_ne_nil hne
    have first_slash := (h first List.mem_cons_self).no_slash
    obtain ⟨c, cs, hc⟩ := List.exists_cons_of_ne_nil
      (mt String.toList_eq_nil_iff.1 (h first List.mem_cons_self).ne_empty)
    rw [hc, List.mem_cons, not_or] at first_slash
    cases others <;> simp [hc, List.intercalate_cons_cons, Ne.symm first_slash.1]
  rw [ofText, hchars, hsplit, hrooted, List.filterMap_map]
  rfl

theorem ofText_text {p : Path} (h : ∀ s ∈ p.steps, s.Readable) : ofText p.text = p := by
  obtain ⟨rooted, steps⟩ := p
  have texts_parts : ∀ part ∈ steps.map Step.text, IsPart part := by
    intro part hpart
    obtain ⟨s, hs, rfl⟩ := List.mem_map.1 hpart
    exact (h s hs).isPart
  by_cases hsteps : steps = []
  · subst hsteps
    cases rooted <;> decide
  have plain := ofText_intercalate (by simpa using hsteps) texts_parts
  rw [stepsOf_texts h] at plain
  cases rooted with
  | false => simpa [text, hsteps] using plain
  | true =>
    rw [show text ⟨true, steps⟩ = "/" ++ "/".intercalate (steps.map Step.text) from rfl,
      ofText_slash, plain]

theorem isRooted_append {s : String} (h : s ≠ "") (t : String) :
    Command.isRooted (s ++ t) = Command.isRooted s := by
  obtain ⟨c, cs, hc⟩ := List.exists_cons_of_ne_nil (mt String.toList_eq_nil_iff.1 h)
  simp [Command.isRooted, hc]

theorem ofText_between (s t : String) (h : s ≠ "") :
    ofText (s ++ "/" ++ t) = ⟨(ofText s).rooted, (ofText s).steps ++ (ofText t).steps⟩ := by
  have hrooted : (ofText (s ++ "/" ++ t)).rooted = (ofText s).rooted := by
    rw [String.append_assoc]
    exact isRooted_append h _
  have hchars : (s ++ "/" ++ t).toList = s.toList ++ '/' :: t.toList := by simp
  rw [← hrooted]
  simp only [ofText, hchars, splitSlash_append, List.filterMap_append]

theorem ofText_slash_end {s : String} (h : s ≠ "") : ofText (s ++ "/") = ofText s := by
  have := ofText_between s "" h
  rw [String.append_empty] at this
  rw [this, show (ofText "").steps = [] by decide, List.append_nil]

theorem joinName_cases {name : String} (h : Command.isRooted name = false) (directory : String) :
    directory = "" ∧ Command.joinName directory name = name ∨
      ∃ xs, Command.joinName directory name = String.ofList (xs ++ '/' :: name.toList) ∧
        (directory = String.ofList (xs ++ ['/']) ∨
          directory = String.ofList xs ∧ xs ≠ [] ∧ xs.getLast? ≠ some '/') := by
  rw [Command.joinName, h, if_neg Bool.false_ne_true]
  by_cases hempty : directory = ""
  · exact .inl ⟨hempty, by rw [hempty, if_pos (by decide), String.empty_append]⟩
  by_cases hlast : directory.toList.getLast? = some '/'
  · obtain ⟨xs, hxs⟩ := List.getLast?_eq_some_iff.1 hlast
    refine .inr ⟨xs, ?_, .inl (by rw [← hxs, String.ofList_toList])⟩
    rw [if_pos (by simp [hlast]), ← String.toList_inj]
    simp [hxs]
  · refine .inr ⟨directory.toList, ?_, .inr ⟨by rw [String.ofList_toList], ?_, hlast⟩⟩
    · rw [if_neg (by simp [hempty, hlast]), ← String.toList_inj]
      simp
    · exact mt String.toList_eq_nil_iff.1 hempty

theorem ofText_joinName (base target : String) :
    ofText (Command.joinName base target) = (ofText base).join (ofText target) := by
  by_cases htarget : Command.isRooted target = true
  · rw [Command.joinName, join, if_pos htarget,
      if_pos (show (ofText target).rooted = true from htarget)]
  have hrooted : (ofText target).rooted = false := eq_false_of_ne_true htarget
  rw [join, if_neg (by rw [hrooted]; exact Bool.false_ne_true)]
  rcases joinName_cases hrooted base with ⟨hbase, hjoined⟩ | ⟨xs, hjoined, hbase⟩
  · rw [hjoined, hbase, show ofText "" = ⟨false, []⟩ by decide, List.nil_append, ← hrooted]
  have split_eq : String.ofList (xs ++ '/' :: target.toList) =
      String.ofList xs ++ "/" ++ target := by
    simp [← String.toList_inj]
  rw [hjoined, split_eq]
  rcases hbase with hbase | ⟨hbase, hne, -⟩
  · have base_eq : base = String.ofList xs ++ "/" := by simp [hbase]
    by_cases hstart : String.ofList xs = ""
    · rw [base_eq, hstart, String.empty_append, ofText_slash]
      rfl
    · rw [base_eq, ofText_between _ target hstart, ofText_slash_end hstart]
  · have hstart : String.ofList xs ≠ "" := by simpa [← String.toList_inj] using hne
    rw [hbase, ofText_between _ target hstart]

end Path

end DocTree
