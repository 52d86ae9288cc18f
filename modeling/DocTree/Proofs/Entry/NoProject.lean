import DocTree.Entry.Encode
import DocTree.Proofs.Json.Written
import DocTree.Proofs.Reflection.RoundTrip

/-!
# Documentation is no project

A documentation file holds a list, and a project may be written as a list of its fields too. But
the first field is a name, where documentation has an object, and a list without items ends before
the fields that have no default. So the text of documentation is never taken for a project.
-/
namespace DocTree.Entry

def refusal : List Container → Json.Fault
  | [] => .invalidLength 2 Reflection.shape.arrayTitle
  | _ :: _ => .invalidType .map "a string"

theorem read_encodeAll (n : Nat) (cs : List Container) :
    Reflection.read .direct (n + 1) (encodeAll cs).tree = .error (refusal cs) := by
  rw [Reflection.read_succ]
  cases cs with
  | nil => rfl
  | cons c cs => rfl

theorem ofText_fileText (l : Json.Layout) (cs : List Container) :
    Reflection.ofText (fileText l cs) = .error (refusal cs) := by
  have line_feed : Json.Document.ofText (fileText l cs) = ⟨(encodeAll cs).tree, false⟩ :=
    Json.Document.ofText_write_append l _ (Json.endsNumeral_cons (by decide) []) rfl
  rw [Reflection.ofText, line_feed, Json.Document.decode, Json.maxLevels, read_encodeAll]
  rfl

end DocTree.Entry
