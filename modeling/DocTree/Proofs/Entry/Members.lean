import DocTree.Entry.Describe
import DocTree.Entry.Encode

/-!
# What a written entry says about itself

An entry is written as an object, and what a reader sees of it stands under the
keys of that object. Every entry names its kind and itself exactly once, whatever
else it holds, and has its flags under one key. Of these flags the one that tells
whether a member is exported is the flag of the reflection that is described.
-/
namespace DocTree

open Json (Value)

def Json.Value.under (key : String) : Value → List Value
  | .object members => (members.filter (·.1 == key)).map Prod.snd
  | _ => []

section Members

variable {key : String} {ms ns : List (String × Value)}

theorem Json.Value.under_append :
    (Value.object (ms ++ ns)).under key =
      (Value.object ms).under key ++ (Value.object ns).under key := by
  simp only [Value.under, List.filter_append, List.map_append]

theorem Json.Value.under_absentOr {α : Type} (k : String) (encode : α → Value) (o : Option α) :
    (Value.object (absentOr k encode o)).under key =
      if k = key then (o.map encode).toList else [] := by
  cases o with
  | none => simp [absentOr, Value.under]
  | some a => by_cases h : k = key <;> simp [absentOr, Value.under, h]

theorem Json.Value.under_absent (h : ∀ m ∈ ms, m.1 ≠ key) : (Value.object ms).under key = [] := by
  have none_left : ms.filter (·.1 == key) = [] := by simpa using h
  rw [Value.under, none_left, List.map_nil]

end Members

namespace Entry

open Json.Value (under_append under_absentOr under_absent)

def showsFlag (flag : String) (v : Value) : Bool :=
  (v.under "flags").any fun flags =>
    (flags.under flag).any fun
      | .boolean b => b
      | _ => false

def showsExport (v : Value) : Bool := showsFlag "isExported" v

section Header

variable (kind : String) (h : Header)

theorem Header.under_kind : (Value.object (h.encodeMembers kind)).under "kind" = [.text kind] := by
  simp only [Header.encodeMembers, under_append, under_absentOr]
  simp [Value.under]

theorem Header.under_name :
    (Value.object (h.encodeMembers kind)).under "name" = [.text h.name] := by
  simp only [Header.encodeMembers, under_append, under_absentOr]
  simp [Value.under]

theorem Header.under_flags :
    (Value.object (h.encodeMembers kind)).under "flags" = (h.marks.map Marks.encode).toList := by
  simp only [Header.encodeMembers, under_append, under_absentOr]
  simp [Value.under]

end Header

def flagsByKey : List (String × (Flags → Option Bool)) :=
  [("isExported", Flags.isExported), ("isExternal", Flags.isExternal),
    ("isOptional", Flags.isOptional), ("isPrivate", Flags.isPrivate),
    ("isProtected", Flags.isProtected), ("isPublic", Flags.isPublic), ("isRest", Flags.isRest),
    ("isStatic", Flags.isStatic)]

theorem Marks.under_flag {key : String} {flag : Flags → Option Bool}
    (h : (key, flag) ∈ flagsByKey) (m : Marks) :
    m.encode.under key = ((flag m.flags).map Value.boolean).toList := by
  simp only [flagsByKey, List.mem_cons, Prod.mk.injEq, List.not_mem_nil, or_false] at h
  simp only [Marks.encode, Flags.encodeMembers, under_append, under_absentOr]
  rcases h with h | h | h | h | h | h | h | h
  all_goals
    obtain ⟨rfl, rfl⟩ := h
    simp

/-- An object starts with the members of a header, and no further member has the key of one of
those that tell kind, name and flags. -/
def WrittenBy (kind : String) (h : Header) (v : Value) : Prop :=
  ∃ own, v = .object (h.encodeMembers kind ++ own) ∧
    ∀ m ∈ own, m.1 ≠ "kind" ∧ m.1 ≠ "name" ∧ m.1 ≠ "flags"

namespace WrittenBy

variable {kind : String} {h : Header} {v : Value}

theorem under_kind (hv : WrittenBy kind h v) : v.under "kind" = [.text kind] := by
  obtain ⟨own, rfl, hown⟩ := hv
  rw [under_append, Header.under_kind, under_absent fun m hm => (hown m hm).1, List.append_nil]

theorem under_name (hv : WrittenBy kind h v) : v.under "name" = [.text h.name] := by
  obtain ⟨own, rfl, hown⟩ := hv
  rw [under_append, Header.under_name, under_absent fun m hm => (hown m hm).2.1, List.append_nil]

theorem under_flags (hv : WrittenBy kind h v) :
    v.under "flags" = (h.marks.map Marks.encode).toList := by
  obtain ⟨own, rfl, hown⟩ := hv
  rw [under_append, Header.under_flags, under_absent fun m hm => (hown m hm).2.2, List.append_nil]

theorem showsFlag_eq {key : String} {flag : Flags → Option Bool} (hkey : (key, flag) ∈ flagsByKey)
    (hv : WrittenBy kind h v) : showsFlag key v = (h.marks.bind (flag ·.flags)).getD false := by
  rw [showsFlag, hv.under_flags]
  cases h.marks with
  | none => rfl
  | some m =>
    simp only [Option.map_some, Option.toList_some, List.any_cons, List.any_nil, Bool.or_false,
      Marks.under_flag hkey, Option.bind_some]
    cases flag m.flags with
    | none => rfl
    | some b => simp

theorem showsExport_eq (hv : WrittenBy kind h v) :
    showsExport v = (h.marks.bind (·.flags.isExported)).getD false :=
  hv.showsFlag_eq (by simp [flagsByKey])

end WrittenBy

theorem Parameter.written (p : Parameter) : WrittenBy "Parameter" p.header p.encode :=
  ⟨_, by rw [encode, List.append_assoc], by cases p.defaultValue <;> simp [absentOr]⟩

theorem Property.written (p : Property) : WrittenBy "Property" p.header p.encode :=
  ⟨_, by rw [encode, List.append_assoc], by cases p.defaultValue <;> simp [absentOr]⟩

theorem Signature.written (s : Signature) : WrittenBy "Signature" s.header s.encode :=
  ⟨_, rfl, by simp⟩

theorem Method.written (m : Method) : WrittenBy "Method" m.header m.encode :=
  ⟨_, rfl, by simp⟩

theorem Container.written (c : Container) : WrittenBy c.kind.name c.header c.encode :=
  ⟨_, rfl, by simp⟩

end Entry

end DocTree
