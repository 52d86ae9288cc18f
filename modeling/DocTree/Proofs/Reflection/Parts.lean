import DocTree.Proofs.Json.Reading
import DocTree.Proofs.Reflection.Encode
import DocTree.Reflection.Decode

/-!
# Reading back the parts of a reflection

The flags, the comment and the sources of a reflection are records that hold no
reflections. Each is read back from what it was written as wherever the levels that
are left suffice for it. A list that was left out is read back as the empty list.
-/
namespace DocTree

open Json (Value Fields Reads ReadsField Fault Regime membersOf reads_text reads_boolean
  reads_word reads_list reads_record readsField_map readsField_option readList depth_lt_list
  depth_le_of_member levels_of_object)

theorem presentMembers_map {κ : Type} (label : κ → String) (value : κ → Option Value)
    (ks : List κ) :
    presentMembers (ks.map fun k => (label k, value k)) = membersOf label value ks := by
  induction ks with
  | nil => rfl
  | cons k ks ih =>
    rw [List.map_cons, presentMembers, membersOf, List.flatMap_cons, List.filterMap_cons]
    cases value k with
    | none => exact ih
    | some v => exact congrArg _ ih

theorem optional_map_some {α : Type} (o : Option α) : Json.optional (o.map some) = o := by
  cases o <;> rfl

def Style.kept {α : Type} (st : Style) (as : List α) : Option (List α) :=
  if st.omitsEmpty && as.isEmpty then none else some as

theorem Style.kept_getD {α : Type} (st : Style) (as : List α) : (st.kept as).getD [] = as := by
  unfold kept
  split
  · rename_i h
    rw [Bool.and_eq_true, List.isEmpty_iff] at h
    exact h.2.symm
  · rfl

theorem Style.eq_of_kept {α : Type} {st : Style} {as bs : List α} (h : st.kept as = some bs) :
    bs = as := by
  unfold kept at h
  split at h
  · exact nomatch h
  · exact (Option.some.inj h).symm

theorem Style.list_map {α : Type} (st : Style) (encode : α → Value) (as : List α) :
    st.list (as.map encode) = (st.kept as).map fun as => .list (as.map encode) := by
  unfold list kept
  rw [List.isEmpty_map]
  split <;> rfl

theorem reads_below {α : Type} {read : Nat → Json → Except Fault α} {encode : α → Value} {n : Nat}
    {as : List α} (hdepth : (Value.list (as.map encode)).depth ≤ n)
    (h : ∀ m < n, ∀ a ∈ as, (encode a).depth ≤ m → Reads m (read m) (encode a) a) :
    Reads n (readList (below read n)) (.list (as.map encode)) as := by
  cases n with
  | zero => exact absurd hdepth (by simp [Value.depth])
  | succ n =>
    refine reads_list fun a ha => h n (Nat.lt_succ_self n) a ha ?_
    have := depth_lt_list (List.mem_map_of_mem (f := encode) ha)
    omega

theorem readsField_below {α : Type} {read : Nat → Json → Except Fault α} {encode : α → Value}
    {n : Nat} {st : Style} {as : List α}
    (hdepth : ∀ v, st.list (as.map encode) = some v → v.depth ≤ n)
    (h : ∀ m < n, ∀ a ∈ as, (encode a).depth ≤ m → Reads m (read m) (encode a) a) :
    ReadsField n (readList (below read n)) (st.list (as.map encode)) (st.kept as) := by
  rw [Style.list_map] at hdepth ⊢
  apply readsField_map
  intro bs hbs
  obtain rfl := Style.eq_of_kept hbs
  refine reads_below (hdepth _ ?_) h
  rw [hbs, Option.map_some]

def FlagKey.flag : FlagKey → Flags → Option Bool
  | .isExported => Flags.isExported
  | .isExternal => Flags.isExternal
  | .isOptional => Flags.isOptional
  | .isPrivate => Flags.isPrivate
  | .isProtected => Flags.isProtected
  | .isPublic => Flags.isPublic
  | .isRest => Flags.isRest
  | .isStatic => Flags.isStatic

def Flags.fields (f : Flags) : Fields fun _ : FlagKey => Option Bool := fun k => (k.flag f).map some

theorem Flags.encode_eq (f : Flags) : f.encode =
    .object (membersOf FlagKey.name (fun k => (k.flag f).map .boolean) Flags.shape.keys) := by
  rw [← presentMembers_map]
  rfl

theorem Flags.reads {f : Flags} {n : Nat} (h : f.encode.depth ≤ n) (g : Regime) :
    Reads n (Flags.read g n) f.encode f := by
  rw [encode_eq] at h ⊢
  obtain ⟨n, rfl⟩ := levels_of_object h
  refine reads_record Flags.shape f.fields
    (fun k => readsField_option fun b _ => reads_boolean n b) ?_ ?_ (by decide) ?_
  · intro k
    cases k <;> rfl
  · intro k
    cases k <;> decide
  · simp only [ofFields, fields, optional_map_some]
    rfl

def TagKey.label (st : Style) : TagKey → String
  | .name => if st.longTagKey then "tagName" else "tag"
  | .text => "text"

def Tag.fields (t : Tag) : Fields fun _ : TagKey => String
  | .name => some t.name
  | .text => some t.text

theorem Tag.encode_eq (st : Style) (t : Tag) : t.encode st =
    .object (membersOf (TagKey.label st) (fun k => (t.fields k).map .text) Tag.shape.keys) := rfl

theorem Tag.reads {t : Tag} {st : Style} {n : Nat} (h : (t.encode st).depth ≤ n) (g : Regime) :
    Reads n (Tag.read g n) (t.encode st) t := by
  rw [encode_eq] at h ⊢
  obtain ⟨n, rfl⟩ := levels_of_object h
  refine reads_record Tag.shape t.fields
    (fun k => readsField_map fun text _ => reads_text n text) ?_ ?_ (by decide) rfl
  · intro k
    cases k with
    | name => cases hst : st.longTagKey <;> simp [TagKey.label, hst, shape]
    | text => rfl
  · intro k
    cases k <;> decide

def CommentKey.value (st : Style) (c : Comment) : CommentKey → Option Json.Value
  | .shortText => some (.text c.shortText)
  | .text => some (.text c.text)
  | .tags => st.list (c.tags.map (Tag.encode st))

def Comment.fields (st : Style) (c : Comment) : Fields CommentKey.Value
  | .shortText => some c.shortText
  | .text => some c.text
  | .tags => st.kept c.tags

theorem Comment.encode_eq (st : Style) (c : Comment) : c.encode st =
    .object (membersOf CommentKey.name (CommentKey.value st c) Comment.shape.keys) := by
  rw [← presentMembers_map]
  rfl

theorem Comment.reads {c : Comment} {st : Style} {n : Nat} (h : (c.encode st).depth ≤ n)
    (g : Regime) : Reads n (Comment.read g n) (c.encode st) c := by
  rw [encode_eq] at h ⊢
  obtain ⟨n, rfl⟩ := levels_of_object h
  have inside (v : Value) (hv : CommentKey.value st c .tags = some v) : v.depth ≤ n :=
    depth_le_of_member h (by decide) hv
  refine reads_record Comment.shape (c.fields st) ?_ ?_ ?_ (by decide) ?_
  · intro k
    cases k with
    | shortText => exact .present (reads_text n _)
    | text => exact .present (reads_text n _)
    | tags => exact readsField_below inside fun m _ t _ ht => Tag.reads ht g
  · intro k
    cases k <;> rfl
  · intro k
    cases k <;> decide
  · simp only [ofFields, fields, Style.kept_getD]
    rfl

def SourceKey.value (s : Source) : SourceKey → Option Json.Value
  | .fileName => some (.text s.fileName)
  | .fullFileName => s.fullFileName.map .text
  | .line => some (.number s.line.toNat)
  | .character => some (.number s.character.toNat)

def Source.fields (s : Source) : Fields SourceKey.Value
  | .fileName => some s.fileName
  | .fullFileName => s.fullFileName.map some
  | .line => some s.line
  | .character => some s.character

theorem Source.encode_eq (s : Source) : s.encode =
    .object (membersOf SourceKey.name (SourceKey.value s) Source.shape.keys) := by
  rw [← presentMembers_map]
  rfl

theorem Source.reads {s : Source} {n : Nat} (h : s.encode.depth ≤ n) (g : Regime) :
    Reads n (Source.read g n) s.encode s := by
  rw [encode_eq] at h ⊢
  obtain ⟨n, rfl⟩ := levels_of_object h
  refine reads_record Source.shape s.fields ?_ ?_ ?_ (by decide) ?_
  · intro k
    cases k with
    | fileName => exact .present (reads_text n _)
    | fullFileName => exact readsField_option fun name _ => reads_text n name
    | line => exact .present (reads_word n _)
    | character => exact .present (reads_word n _)
  · intro k
    cases k <;> rfl
  · intro k
    cases k <;> decide
  · simp only [ofFields, fields, optional_map_some]
    rfl

end DocTree
