import DocTree.Proofs.Entry.Mirror

/-!
# What the renderer and the directory touch

The renderer has a say in the documentation of an entry and the working directory in its
file name, and neither in anything else. Headers are where both end up, so it is enough to
compare headers: what relates the headers that two settings give to one reflection relates
all entries of a project. An entry is documented when its reflection has a comment, and it
has a file name when the first source of the reflection has a full path.
-/
namespace DocTree.Entry

def Parameter.mapHeader (f : Header → Header) (p : Parameter) : Parameter :=
  { p with header := f p.header }

def Property.mapHeader (f : Header → Header) (p : Property) : Property :=
  { p with header := f p.header }

def Signature.mapHeaders (f : Header → Header) (g : Signature) : Signature :=
  { g with
    header := f g.header
    parameters := g.parameters.map (Parameter.mapHeader f) }

def Method.mapHeaders (f : Header → Header) (m : Method) : Method :=
  { m with
    header := f m.header
    signatures := m.signatures.map (Signature.mapHeaders f) }

def Container.mapHeaders (f : Header → Header) (c : Container) : Container :=
  { c with
    header := f c.header
    methods := c.methods.map (Method.mapHeaders f)
    properties := c.properties.map (Property.mapHeader f) }

@[simp] theorem Parameter.mapHeader_id : Parameter.mapHeader id = id := rfl

@[simp] theorem Property.mapHeader_id : Property.mapHeader id = id := rfl

@[simp] theorem Signature.mapHeaders_id : Signature.mapHeaders id = id := by
  funext g
  simp [mapHeaders]

@[simp] theorem Method.mapHeaders_id : Method.mapHeaders id = id := by
  funext m
  simp [mapHeaders]

@[simp] theorem Container.mapHeaders_id : Container.mapHeaders id = id := by
  funext c
  simp [mapHeaders]

def Header.render (f : String → String) (h : Header) : Header :=
  { h with documentation := h.documentation.map f }

def Header.hideFileName (h : Header) : Header := { h with fileName := h.fileName.map fun _ => "" }

namespace Settings

section Compared

variable {s t : Settings} {f g : Header → Header}

theorem admits_congr (ho : s.options = t.options) : s.admits = t.admits := by
  funext r
  rw [admits, admits, ho]

theorem parameter_congr (hf : ∀ r, f (s.header r) = g (t.header r)) (r : Reflection) :
    (s.parameter r).mapHeader f = (t.parameter r).mapHeader g :=
  congrArg (Parameter.mk · _ _) (hf r)

theorem property_congr (hf : ∀ r, f (s.header r) = g (t.header r)) (r : Reflection) :
    (s.property r).mapHeader f = (t.property r).mapHeader g :=
  congrArg (Property.mk · _ _) (hf r)

theorem signature_congr (ho : s.options = t.options)
    (hf : ∀ r, f (s.header r) = g (t.header r)) (r : Reflection) :
    (s.signature r).mapHeaders f = (t.signature r).mapHeaders g := by
  have parameters : ((r.parameters.filter s.admits).map s.parameter).map (Parameter.mapHeader f) =
      ((r.parameters.filter t.admits).map t.parameter).map (Parameter.mapHeader g) := by
    rw [List.map_map, List.map_map, admits_congr ho]
    exact List.map_congr_left fun d _ => parameter_congr hf d
  simp only [Signature.mapHeaders, signature, hf r, parameters]

theorem method_congr (ho : s.options = t.options)
    (hf : ∀ r, f (s.header r) = g (t.header r)) (r : Reflection) :
    (s.method r).mapHeaders f = (t.method r).mapHeaders g := by
  have signatures : (r.signatures.map s.signature).map (Signature.mapHeaders f) =
      (r.signatures.map t.signature).map (Signature.mapHeaders g) := by
    rw [List.map_map, List.map_map]
    exact List.map_congr_left fun d _ => signature_congr ho hf d
  simp only [Method.mapHeaders, method, hf r, signatures]

theorem container_congr (ho : s.options = t.options)
    (hf : ∀ r, f (s.header r) = g (t.header r)) (k : ContainerKind) (r : Reflection) :
    (s.container k r).mapHeaders f = (t.container k r).mapHeaders g := by
  have methods : (((r.childrenOfKind .method).filter s.admits).map s.method).map
        (Method.mapHeaders f) =
      (((r.childrenOfKind .method).filter t.admits).map t.method).map (Method.mapHeaders g) := by
    rw [List.map_map, List.map_map, admits_congr ho]
    exact List.map_congr_left fun d _ => method_congr ho hf d
  have properties : (((r.childrenOfKind .property).filter s.admits).map s.property).map
        (Property.mapHeader f) =
      (((r.childrenOfKind .property).filter t.admits).map t.property).map
        (Property.mapHeader g) := by
    rw [List.map_map, List.map_map, admits_congr ho]
    exact List.map_congr_left fun d _ => property_congr hf d
  simp only [Container.mapHeaders, container, hf r, methods, properties]

theorem project_congr (ho : s.options = t.options)
    (hf : ∀ r, f (s.header r) = g (t.header r)) (r : Reflection) :
    (s.project r).map (Container.mapHeaders f) = (t.project r).map (Container.mapHeaders g) := by
  have containers (k : ContainerKind) : Container.mapHeaders f ∘ s.container k =
      Container.mapHeaders g ∘ t.container k := funext fun d => container_congr ho hf k d
  simp only [project, List.map_append, List.map_map, containers]

end Compared

end Settings

structure Signature.Fits (P : Reflection → Header → Prop) (s : Settings) (r : Reflection)
    (g : Signature) : Prop where
  header : P r g.header
  parameters : Selects s.Admits (fun d p => P d p.header) r.parameters g.parameters

structure Method.Fits (P : Reflection → Header → Prop) (s : Settings) (r : Reflection)
    (m : Method) : Prop where
  header : P r m.header
  signatures : List.Forall₂ (Signature.Fits P s) r.signatures m.signatures

structure Container.Fits (P : Reflection → Header → Prop) (s : Settings) (r : Reflection)
    (c : Container) : Prop where
  header : P r c.header
  methods : Selects (fun d => d.kind = .method ∧ s.Admits d) (Method.Fits P s) r.children c.methods
  properties :
    Selects (fun d => d.kind = .property ∧ s.Admits d) (fun d p => P d p.header) r.children
      c.properties

def FitAt (P : Reflection → Header → Prop) (s : Settings) (r : Reflection) :
    List (List Nat) → List Container → Prop :=
  List.Forall₂ fun p c => ∃ d, r.at? p = some d ∧ Container.Fits P s d c

/-- An entry is documented just when its reflection has a comment, and has a file name just when
the first source of the reflection has a full path. -/
structure ShowsPresent (r : Reflection) (h : Header) : Prop where
  documentation : h.documentation.isSome ↔ ∃ c, r.comment = some c
  fileName : h.fileName.isSome ↔
    ∃ source full, r.sources.head? = some source ∧ source.fullFileName = some full

namespace Settings

variable {P : Reflection → Header → Prop} (s : Settings)

theorem signature_fits (hP : ∀ d, P d (s.header d)) (r : Reflection) :
    Signature.Fits P s r (s.signature r) where
  header := hP r
  parameters := selects_map_filter s.admits s.parameter s.admits_iff hP r.parameters

theorem method_fits (hP : ∀ d, P d (s.header d)) (r : Reflection) :
    Method.Fits P s r (s.method r) where
  header := hP r
  signatures := by
    apply List.forall₂_map_right_iff.2
    apply List.forall₂_same.2
    exact fun d _ => s.signature_fits hP d

theorem container_fits (hP : ∀ d, P d (s.header d)) (k : ContainerKind) (r : Reflection) :
    Container.Fits P s r (s.container k r) where
  header := hP r
  methods := s.members_select .method s.method (s.method_fits hP) r
  properties := s.members_select .property s.property hP r

theorem fileName_eq (r : Reflection) :
    s.fileName r = (r.sources.head?.bind Source.fullFileName).map (relativePath s.directory) := by
  unfold fileName
  cases r.sources.head? with
  | none => rfl
  | some source => cases hfull : source.fullFileName <;> simp [hfull]

theorem header_showsPresent (r : Reflection) : ShowsPresent r (s.header r) where
  documentation := by
    simp only [header, Option.isSome_map, Option.isSome_iff_exists]
  fileName := by
    simp only [header, fileName_eq, Option.isSome_map, Option.isSome_iff_exists,
      Option.bind_eq_some_iff]
    exact exists_comm

theorem render_header (options : Options) (directory : String) (r : Reflection) :
    ((Settings.mk .plain options directory).header r).render Markdown.toHtml =
      (Settings.mk .markdown options directory).header r := by
  simp only [Header.render, header, Option.map_map]
  rfl

theorem hideFileName_header (renderer : Renderer) (options : Options)
    (directory directory' : String) (r : Reflection) :
    ((Settings.mk renderer options directory).header r).hideFileName =
      ((Settings.mk renderer options directory').header r).hideFileName := by
  simp only [Header.hideFileName, header, fileName_eq, Option.map_map]
  rfl

/-- The renderer makes the documentation of each entry that has some and nothing else of it, the
working directory which file each entry with a file name names and nothing else, and which entries
have them is told by their reflections alone. -/
theorem project_independent (options : Options) (r : Reflection) :
    (∀ directory, project ⟨.markdown, options, directory⟩ r =
      (project ⟨.plain, options, directory⟩ r).map
        (Container.mapHeaders (Header.render Markdown.toHtml))) ∧
    (∀ renderer directory directory',
      (project ⟨renderer, options, directory⟩ r).map (Container.mapHeaders Header.hideFileName) =
        (project ⟨renderer, options, directory'⟩ r).map
          (Container.mapHeaders Header.hideFileName)) ∧
    (∀ renderer directory, ∃ interfaces classes is cs,
      AddressesOf .interface r interfaces ∧ AddressesOf .classType r classes ∧
      project ⟨renderer, options, directory⟩ r = is ++ cs ∧
      FitAt ShowsPresent ⟨renderer, options, directory⟩ r interfaces is ∧
      FitAt ShowsPresent ⟨renderer, options, directory⟩ r classes cs) := by
  refine ⟨fun directory => ?_, fun renderer directory directory' => ?_,
    fun renderer directory => ?_⟩
  · have rendered := project_congr (s := ⟨.plain, options, directory⟩)
      (t := ⟨.markdown, options, directory⟩) (g := id) rfl (render_header options directory) r
    rw [Container.mapHeaders_id, List.map_id] at rendered
    exact rendered.symm
  · exact project_congr (s := ⟨renderer, options, directory⟩)
      (t := ⟨renderer, options, directory'⟩) rfl
      (hideFileName_header renderer options directory directory') r
  · let s : Settings := ⟨renderer, options, directory⟩
    have fits (k : ContainerKind) := s.container_fits s.header_showsPresent k
    obtain ⟨ps, hps, his⟩ := s.containers_located .interface .interface (fits _) r
    obtain ⟨qs, hqs, hcs⟩ := s.containers_located .classType .classType (fits _) r
    exact ⟨ps, qs, _, _, hps, hqs, rfl, his, hcs⟩

end Settings

end DocTree.Entry
