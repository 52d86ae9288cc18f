import DocTree.Entry.Describe
import Mathlib.Logic.Relation
import Mathlib.Data.String.Basic

/-!
# Facts and documentation among the tags

Of the tags of a comment some state a fact about the declaration and all others document it.
What an entry says of the facts comes from the first tag of each name, and its documentation
from the other tags in their order. So it does not matter how the two kinds are mixed, and a
change to tags of one kind does not show in what is made of the other kind.
-/
namespace DocTree

namespace Tag

def StatesFact (t : Tag) : Prop := t.name = "default" ∨ t.name = "deprecated"

instance (t : Tag) : Decidable t.StatesFact := inferInstanceAs (Decidable (_ ∨ _))

theorem isDocumentation_eq (t : Tag) : t.isDocumentation = decide ¬ t.StatesFact := by
  by_cases default : t.name = "default" <;> by_cases deprecated : t.name = "deprecated" <;>
    simp [isDocumentation, StatesFact, default, deprecated]

/-- One change to the tags of a comment, at a place where `P` allows it for the tags before the
place and the tag that comes or goes. -/
inductive Edit (P : List Tag → Tag → Prop) : List Tag → List Tag → Prop
  | add {before after : List Tag} {t : Tag} :
      P before t → Edit P (before ++ after) (before ++ t :: after)
  | remove {before after : List Tag} {t : Tag} :
      P before t → Edit P (before ++ t :: after) (before ++ after)
  | change {before after : List Tag} {t u : Tag} :
      P before t → P before u → Edit P (before ++ t :: after) (before ++ u :: after)

abbrev Edits (P : List Tag → Tag → Prop) : List Tag → List Tag → Prop :=
  Relation.ReflTransGen (Edit P)

/-- A tag that states nothing: it documents, or a tag before it has its name already. -/
def StatesNothing (before : List Tag) (t : Tag) : Prop :=
  ¬ t.StatesFact ∨ ∃ u ∈ before, u.name = t.name

section Edits

variable {α : Type} {P : List Tag → Tag → Prop} {tags tags' : List Tag}

theorem Edits.eq {f : List Tag → α}
    (uncounted : ∀ before t after, P before t → f (before ++ t :: after) = f (before ++ after))
    (h : Edits P tags tags') : f tags = f tags' := by
  induction h with
  | refl => rfl
  | tail _ last ih =>
    rw [ih]
    cases last with
    | add ht => exact (uncounted _ _ _ ht).symm
    | remove ht => exact uncounted _ _ _ ht
    | change ht hu => exact (uncounted _ _ _ ht).trans (uncounted _ _ _ hu).symm

theorem Edits.filter_eq (h : Edits (fun _ t => t.StatesFact) tags tags') :
    tags.filter isDocumentation = tags'.filter isDocumentation := by
  apply h.eq
  intro before t after ht
  have consumed : ¬ t.isDocumentation = true := by simpa [isDocumentation_eq] using ht
  simp only [List.filter_append, List.filter_cons_of_neg consumed]

theorem Edits.find?_eq {name : String} (hname : name = "default" ∨ name = "deprecated")
    (h : Edits StatesNothing tags tags') :
    tags.find? (·.name == name) = tags'.find? (·.name == name) := by
  apply h.eq
  intro before t after ht
  rw [List.find?_append, List.find?_append]
  by_cases same : t.name = name
  · -- the tag has a name that states a fact, so the fact was stated before
    have fact : t.StatesFact := by rwa [← same] at hname
    obtain ⟨u, hu, hut⟩ := ht.resolve_left (not_not.2 fact)
    have found : (before.find? (·.name == name)).isSome = true :=
      List.find?_isSome.2 ⟨u, hu, by simp [hut, same]⟩
    obtain ⟨first, hfirst⟩ := Option.isSome_iff_exists.1 found
    simp only [hfirst, Option.some_or]
  · rw [List.find?_cons_of_neg (by simpa using same)]

end Edits

structure SameOrders (tags tags' : List Tag) : Prop where
  facts : tags.filter (fun t => t.StatesFact) = tags'.filter fun t => t.StatesFact
  others : tags.filter (fun t => ¬ t.StatesFact) = tags'.filter fun t => ¬ t.StatesFact

theorem SameOrders.filter_eq {tags tags' : List Tag} (h : SameOrders tags tags') :
    tags.filter isDocumentation = tags'.filter isDocumentation := by
  have same : isDocumentation = fun t => decide ¬ t.StatesFact := funext isDocumentation_eq
  rw [same]
  exact h.others

theorem SameOrders.find?_eq {tags tags' : List Tag} (h : SameOrders tags tags') {name : String}
    (hname : name = "default" ∨ name = "deprecated") :
    tags.find? (·.name == name) = tags'.find? (·.name == name) := by
  have among_facts (ts : List Tag) :
      ts.find? (·.name == name) = (ts.filter fun t => t.StatesFact).find? (·.name == name) := by
    rw [List.find?_filter]
    congr 1
    funext t
    by_cases same : t.name = name
    · have fact : t.StatesFact := by rwa [← same] at hname
      simp [same, fact]
    · simp [same]
  rw [among_facts tags, among_facts tags', h.facts]

end Tag

def Reflection.withTags (r : Reflection) (tags : List Tag) : Reflection :=
  { r with comment := r.comment.map fun c => { c with tags := tags } }

namespace Entry.Settings

structure DescribesAlike (s : Settings) (r r' : Reflection) : Prop where
  parameter : s.parameter r = s.parameter r'
  property : s.property r = s.property r'
  signature : s.signature r = s.signature r'
  method : s.method r = s.method r'
  container : ∀ k, s.container k r = s.container k r'

variable (s : Settings) (r : Reflection) {tags tags' : List Tag}

theorem documentation_withTags
    (h : tags.filter Tag.isDocumentation = tags'.filter Tag.isDocumentation) :
    (s.header (r.withTags tags)).documentation = (s.header (r.withTags tags')).documentation := by
  have text_eq (c : Comment) : Comment.documentation { c with tags := tags } =
      Comment.documentation { c with tags := tags' } := by
    rw [Comment.documentation, Comment.documentation, h]
  cases hc : r.comment with
  | none => simp [header, Reflection.withTags, hc]
  | some c => simp [header, Reflection.withTags, hc, text_eq]

theorem tag?_withTags {name : String}
    (h : tags.find? (·.name == name) = tags'.find? (·.name == name)) :
    (r.withTags tags).tag? name = (r.withTags tags').tag? name := by
  cases hc : r.comment with
  | none => simp [Reflection.tag?, Reflection.withTags, hc]
  | some c => simp [Reflection.tag?, Reflection.withTags, hc, Comment.tag?, h]

theorem defaultText_withTags
    (h : tags.find? (·.name == "default") = tags'.find? (·.name == "default")) :
    (r.withTags tags).defaultText = (r.withTags tags').defaultText := by
  have declared : (r.withTags tags).defaultValue = (r.withTags tags').defaultValue := rfl
  rw [Reflection.defaultText, Reflection.defaultText, tag?_withTags r h, declared]

theorem marks_withTags
    (h : tags.find? (·.name == "deprecated") = tags'.find? (·.name == "deprecated")) :
    (s.header (r.withTags tags)).marks = (s.header (r.withTags tags')).marks := by
  have deprecation_eq : (r.withTags tags).deprecation = (r.withTags tags').deprecation := by
    rw [Reflection.deprecation, Reflection.deprecation, tag?_withTags r h]
  have flags_eq : (r.withTags tags).flags = (r.withTags tags').flags := rfl
  simp only [header, deprecation_eq, flags_eq]

theorem describesAlike_withTags
    (documentation : (s.header (r.withTags tags)).documentation =
      (s.header (r.withTags tags')).documentation)
    (marks : (s.header (r.withTags tags)).marks = (s.header (r.withTags tags')).marks)
    (default : (r.withTags tags).defaultText = (r.withTags tags').defaultText) :
    s.DescribesAlike (r.withTags tags) (r.withTags tags') := by
  have header_eq : s.header (r.withTags tags) = s.header (r.withTags tags') :=
    (Header.mk.injEq _ _ _ _ _ _ _ _).mpr ⟨documentation, rfl, marks, rfl⟩
  have typeText_eq : (r.withTags tags).typeText = (r.withTags tags').typeText := rfl
  have signatureText_eq : (r.withTags tags).signatureText = (r.withTags tags').signatureText := rfl
  constructor
  · rw [parameter, parameter, header_eq, default, typeText_eq]
  · rw [property, property, header_eq, default, typeText_eq]
  · rw [signature, signature, header_eq, typeText_eq, signatureText_eq]
    rfl
  · rw [method, method, header_eq]
    rfl
  · intro k
    rw [container, container, header_eq]
    rfl

/-- Facts and documentation may be mixed in any way, changes to the facts do not show in the
documentation, and changes to tags that state nothing show in nothing else. -/
theorem tags_kept_apart :
    (∀ tags tags', Tag.SameOrders tags tags' →
      s.DescribesAlike (r.withTags tags) (r.withTags tags')) ∧
    (∀ tags tags', Tag.Edits (fun _ t => t.StatesFact) tags tags' →
      (s.header (r.withTags tags)).documentation = (s.header (r.withTags tags')).documentation) ∧
    (∀ tags tags', Tag.Edits Tag.StatesNothing tags tags' →
      (s.parameter (r.withTags tags)).defaultValue = (s.parameter (r.withTags tags')).defaultValue ∧
      (s.property (r.withTags tags)).defaultValue = (s.property (r.withTags tags')).defaultValue ∧
      (s.header (r.withTags tags)).marks = (s.header (r.withTags tags')).marks) := by
  refine ⟨fun tags tags' h => ?_, fun tags tags' h => ?_, fun tags tags' h => ?_⟩
  · apply s.describesAlike_withTags
    · exact s.documentation_withTags r h.filter_eq
    · exact s.marks_withTags r (h.find?_eq (.inr rfl))
    · exact defaultText_withTags r (h.find?_eq (.inl rfl))
  · exact s.documentation_withTags r h.filter_eq
  · have default := defaultText_withTags r (h.find?_eq (.inl rfl))
    exact ⟨default, default, s.marks_withTags r (h.find?_eq (.inr rfl))⟩

def taggedParameter (tags : List Tag) : Reflection where
  name := "x"
  kind := .parameter
  flags := some ⟨some true, none, none, none, none, none, none, none⟩
  comment := some ⟨"S", "", tags⟩
  type := none
  defaultValue := none
  sources := []
  signatures := []
  parameters := []
  children := []
  typeParameters := []

theorem tags_kept_apart_parameter :
    let s : Settings := ⟨.plain, .standard, "/work"⟩
    let initial : List Tag :=
      [⟨"default", " 1 "⟩, ⟨"see", "a\n"⟩, ⟨"deprecated", ""⟩, ⟨"see", "b"⟩]
    let sorted : List Tag :=
      [⟨"see", "a\n"⟩, ⟨"see", "b"⟩, ⟨"default", " 1 "⟩, ⟨"deprecated", ""⟩]
    let fewer : List Tag := [⟨"see", "a\n"⟩, ⟨"deprecated", ""⟩, ⟨"see", "b"⟩]
    let repeated : List Tag := initial ++ [⟨"default", "2"⟩]
    s.DescribesAlike (taggedParameter initial) (taggedParameter sorted) ∧
      (s.header (taggedParameter initial)).documentation =
        (s.header (taggedParameter fewer)).documentation ∧
      (s.parameter (taggedParameter initial)).defaultValue =
        (s.parameter (taggedParameter repeated)).defaultValue ∧
      (s.header (taggedParameter initial)).documentation = some "S\n\n@see a\n@see b" ∧
      (s.parameter (taggedParameter initial)).defaultValue = some "1" := by
  intro s initial sorted fewer repeated
  obtain ⟨mixed, facts, nothing⟩ := s.tags_kept_apart (taggedParameter [])
  have removed : Tag.Edit (fun _ t => t.StatesFact) ([] ++ ⟨"default", " 1 "⟩ :: fewer)
      ([] ++ fewer) := .remove (by decide)
  have stated : Tag.StatesNothing initial ⟨"default", "2"⟩ :=
    .inr ⟨⟨"default", " 1 "⟩, by decide, rfl⟩
  have added : Tag.Edit Tag.StatesNothing (initial ++ []) repeated := .add stated
  rw [List.append_nil] at added
  exact ⟨mixed initial sorted ⟨by decide, by decide⟩, facts initial fewer (.single removed),
    (nothing initial repeated (.single added)).1, by decide +kernel, by decide +kernel⟩

end Entry.Settings

end DocTree
