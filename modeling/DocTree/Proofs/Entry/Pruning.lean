import DocTree.Proofs.Entry.Members

/-!
# Showing only what is exported

Leaving out what is not exported prunes the entries that show everything, and does
nothing else to them. An entry of a method, a property or a parameter goes when
the flags that it is written with do not say that it is exported. Containers and
signatures stay, and an entry that stays keeps all its fields but for the entries
that go from its own lists.
-/
namespace DocTree.Entry

def exportedOnly {α : Type} (encode : α → Json.Value) (entries : List α) : List α :=
  entries.filter fun a => showsExport (encode a)

def Signature.prune (g : Signature) : Signature :=
  { g with parameters := exportedOnly Parameter.encode g.parameters }

def Method.prune (m : Method) : Method :=
  { m with signatures := m.signatures.map Signature.prune }

def Container.prune (c : Container) : Container :=
  { c with
    methods := (exportedOnly Method.encode c.methods).map Method.prune
    properties := exportedOnly Property.encode c.properties }

theorem WrittenBy.showsExport_reflection {kind : String} {s : Settings} {r : Reflection}
    {v : Json.Value} (hv : WrittenBy kind (s.header r) v) : showsExport v = r.isExported := by
  rw [hv.showsExport_eq, Settings.header, Reflection.isExported, Reflection.hasFlag]
  cases r.flags <;> rfl

namespace Settings

variable (renderer : Renderer) (directory : String)

abbrev showingAll : Settings := ⟨renderer, ⟨true⟩, directory⟩

abbrev showingExported : Settings := ⟨renderer, ⟨false⟩, directory⟩

theorem exportedOnly_map {α : Type} (encode : α → Json.Value) (f : Reflection → α)
    (hf : ∀ r, showsExport (encode (f r)) = r.isExported) (rs : List Reflection) :
    exportedOnly encode ((rs.filter (showingAll renderer directory).admits).map f) =
      (rs.filter (showingExported renderer directory).admits).map f := by
  have all_admitted : rs.filter (showingAll renderer directory).admits = rs :=
    List.filter_eq_self.2 fun _ _ => rfl
  have tests_agree :
      (fun a => showsExport (encode a)) ∘ f = (showingExported renderer directory).admits :=
    funext fun r => (hf r).trans (Bool.false_or _).symm
  rw [exportedOnly, all_admitted, List.filter_map, tests_agree]

theorem signature_prune (r : Reflection) :
    (showingExported renderer directory).signature r =
      ((showingAll renderer directory).signature r).prune := by
  have parameters_eq := exportedOnly_map renderer directory Parameter.encode
    (showingAll renderer directory).parameter
    (fun d => WrittenBy.showsExport_reflection (Parameter.written _)) r.parameters
  rw [Signature.prune, signature, signature, parameters_eq]
  rfl

theorem method_prune (r : Reflection) :
    (showingExported renderer directory).method r =
      ((showingAll renderer directory).method r).prune := by
  rw [Method.prune, method, method, List.map_map]
  exact congrArg (Method.mk _)
    (List.map_congr_left fun d _ => signature_prune renderer directory d)

theorem container_prune (k : ContainerKind) (r : Reflection) :
    (showingExported renderer directory).container k r =
      ((showingAll renderer directory).container k r).prune := by
  have methods_eq := exportedOnly_map renderer directory Method.encode
    (showingAll renderer directory).method
    (fun d => WrittenBy.showsExport_reflection (Method.written _)) (r.childrenOfKind .method)
  have properties_eq := exportedOnly_map renderer directory Property.encode
    (showingAll renderer directory).property
    (fun d => WrittenBy.showsExport_reflection (Property.written _)) (r.childrenOfKind .property)
  rw [Container.prune, container, container, methods_eq, properties_eq, List.map_map]
  exact congrArg (Container.mk k _ · _)
    (List.map_congr_left fun d _ => method_prune renderer directory d)

/-- What is shown without the members that are not exported is what is shown with them, pruned. -/
theorem project_exported_eq_prune (r : Reflection) :
    Settings.project ⟨renderer, ⟨false⟩, directory⟩ r =
      (Settings.project ⟨renderer, ⟨true⟩, directory⟩ r).map Container.prune := by
  have containers_eq (k : ContainerKind) :
      (showingExported renderer directory).container k =
        Container.prune ∘ (showingAll renderer directory).container k :=
    funext fun d => container_prune renderer directory k d
  rw [project, project, List.map_append, List.map_map, List.map_map, containers_eq, containers_eq]

end Settings

end DocTree.Entry
