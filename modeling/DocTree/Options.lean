import DocTree.Json.Record

/-!
# Options

An options file is a JSON object of which one key matters here.
-/
namespace DocTree

structure Options where
  includeNonExported : Bool
  deriving DecidableEq, Repr

namespace Options

def standard : Options := ⟨false⟩

inductive Key where
  | includeNonExported
  deriving DecidableEq, Repr

def shape : Json.Shape Key where
  title := "struct VisitorOptions"
  keys := [.includeNonExported]
  name _ := "includeNonExported"
  mayEndBefore _ := true
  field? s := if s = "includeNonExported" then some .includeNonExported else none

def ofFields (f : Json.Fields fun _ : Key => Bool) : Except Json.Fault Options :=
  .ok ⟨(f .includeNonExported).getD standard.includeNonExported⟩

def read : Json → Except Json.Fault Options :=
  Json.readRecord .direct shape (some fun _ => Json.readBool) ofFields

def ofText (s : String) : Except Json.Fault Options := (Json.Document.ofText s).decode read

end Options

end DocTree
