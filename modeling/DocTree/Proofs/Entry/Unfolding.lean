import DocTree.Entry.Describe
import DocTree.Proofs.Json.Layouts
import DocTree.Proofs.Reflection.Unfolding

/-!
# The depth of accepted graphs

A text is accepted only when every path of its graph enters at most 127 lists and objects, the
graph itself counted. What is written and described by recursion is therefore done after a
bounded number of steps: any function may be given for what is further down. Values that stand
for no field are not part of the graph, and they may nest without a limit.
-/
namespace DocTree.Entry

open Node (Enters)

namespace Settings

section By

variable (s : Settings) (text : TypeExpr → String)

def parameterBy (r : Reflection) : Parameter := ⟨s.header r, r.defaultText, declaredBy text r.type⟩

def propertyBy (r : Reflection) : Property := ⟨s.header r, r.defaultText, declaredBy text r.type⟩

def signatureBy (r : Reflection) : Signature where
  header := s.header r
  parameters := (r.parameters.filter s.admits).map (s.parameterBy text)
  returnType := declaredBy text r.type
  type := callBy text " => " r

def methodBy (r : Reflection) : Method := ⟨s.header r, r.signatures.map (s.signatureBy text)⟩

def containerBy (k : ContainerKind) (r : Reflection) : Container where
  kind := k
  header := s.header r
  methods := ((r.childrenOfKind .method).filter s.admits).map (s.methodBy text)
  properties := ((r.childrenOfKind .property).filter s.admits).map (s.propertyBy text)

def projectBy (walk : Reflection → List Reflection) (r : Reflection) : List Container :=
  ((walk r).filter (·.kind == .interface)).map (s.containerBy text .interface) ++
    ((walk r).filter (·.kind == .classType)).map (s.containerBy text .classType)

end By

theorem parameterBy_text (s : Settings) : s.parameterBy TypeExpr.text = s.parameter := by
  funext r
  rw [parameterBy, ← declaredText_eq]
  rfl

theorem propertyBy_text (s : Settings) : s.propertyBy TypeExpr.text = s.property := by
  funext r
  rw [propertyBy, ← declaredText_eq]
  rfl

theorem signatureBy_text (s : Settings) : s.signatureBy TypeExpr.text = s.signature := by
  funext r
  rw [signatureBy, parameterBy_text, ← declaredText_eq, ← Reflection.callText_eq]
  rfl

theorem methodBy_text (s : Settings) : s.methodBy TypeExpr.text = s.method := by
  funext r
  rw [methodBy, signatureBy_text]
  rfl

theorem containerBy_text (s : Settings) (k : ContainerKind) :
    s.containerBy TypeExpr.text k = s.container k := by
  funext r
  rw [containerBy, methodBy_text, propertyBy_text]
  rfl

theorem projectBy_text (s : Settings) (r : Reflection) :
    s.projectBy TypeExpr.text Reflection.descendants r = s.project r := by
  rw [projectBy, containerBy_text, containerBy_text]
  rfl

section Agreement

variable {f g : TypeExpr → String} {r : Reflection} (s : Settings)

theorem signatureBy_congr (h : AgreeBelow f g (.reflection r)) :
    s.signatureBy f r = s.signatureBy g r := by
  have parameters : (r.parameters.filter s.admits).map (s.parameterBy f) =
      (r.parameters.filter s.admits).map (s.parameterBy g) := by
    refine List.map_congr_left fun p hp => ?_
    have step := Enters.parameter (List.mem_of_mem_filter hp)
    rw [parameterBy, parameterBy, declaredBy_congr (h.step step)]
  rw [signatureBy, signatureBy, parameters, declaredBy_congr h, callBy_congr h]

theorem containerBy_congr (h : AgreeBelow f g (.reflection r)) (k : ContainerKind) :
    s.containerBy f k r = s.containerBy g k r := by
  have child {m : Kind} {c : Reflection} (hc : c ∈ (r.childrenOfKind m).filter s.admits) :
      AgreeBelow f g (.reflection c) :=
    h.step (.child (List.mem_of_mem_filter (List.mem_of_mem_filter hc)))
  have methods : ((r.childrenOfKind .method).filter s.admits).map (s.methodBy f) =
      ((r.childrenOfKind .method).filter s.admits).map (s.methodBy g) := by
    refine List.map_congr_left fun c hc => ?_
    have signatures : c.signatures.map (s.signatureBy f) = c.signatures.map (s.signatureBy g) :=
      List.map_congr_left fun d hd => s.signatureBy_congr ((child hc).step (.signature hd))
    rw [methodBy, methodBy, signatures]
  have properties : ((r.childrenOfKind .property).filter s.admits).map (s.propertyBy f) =
      ((r.childrenOfKind .property).filter s.admits).map (s.propertyBy g) := by
    refine List.map_congr_left fun c hc => ?_
    rw [propertyBy, propertyBy, declaredBy_congr (child hc)]
  rw [containerBy, containerBy, methods, properties]

theorem projectBy_congr {walk : Reflection → List Reflection} (hwalk : walk r = r.descendants)
    (h : AgreeBelow f g (.reflection r)) :
    s.projectBy f walk r = s.projectBy g Reflection.descendants r := by
  have containers (k : ContainerKind) (m : Kind) :
      (r.descendants.filter (·.kind == m)).map (s.containerBy f k) =
        (r.descendants.filter (·.kind == m)).map (s.containerBy g k) := by
    refine List.map_congr_left fun c hc => ?_
    obtain ⟨k', path⟩ := Node.reaches_of_mem_descendants (List.mem_of_mem_filter hc)
    exact s.containerBy_congr (h.below path) k
  rw [projectBy, projectBy, hwalk, containers, containers]

end Agreement

end Settings

end Entry

open Entry (Settings)
open Node (Reaches Within)

/-- No path of the graph enters more than 127 lists and objects, with the graph itself, and the
recursions over it end after as many steps as this allows, whatever is given for the rest. -/
structure Reflection.Bounded (r : Reflection) : Prop where
  paths : ∀ k b, Reaches (.reflection r) k b → k + 1 ≤ 127
  chains : ∀ p d, r.at? p = some d → p.length ≤ 63
  walks : ∀ k d, Reaches (.reflection r) k (.reflection d) →
    ∀ rest, walkStep^[64] rest d = d.descendants
  texts : ∀ k t, Reaches (.reflection r) k (.type t) → ∀ rest, textStep^[126] rest t = t.text
  projects : ∀ (s : Settings) walk rest,
    s.projectBy (textStep^[126] rest) (walkStep^[64] walk) r = s.project r

theorem Reflection.bounded_of_within {r : Reflection} (h : Within 127 (.reflection r)) :
    r.Bounded where
  paths := h
  chains p d hp := by
    have := h _ _ (Node.reaches_of_at? hp)
    omega
  walks k d path rest := walkStep_iterate rest (h.below path) (by omega)
  texts k t path rest := by
    have entered : 0 < k := by
      cases path with
      | step _ last => exact Nat.add_pos_right _ last.pos
    exact textStep_iterate rest (h.below path) (by omega)
  projects s walk rest := by
    have walked := walkStep_iterate walk h (m := 64) (by omega)
    rw [s.projectBy_congr walked (agreeBelow_iterate rest h (by omega)), s.projectBy_text]

def nestedList : Nat → Json.Value
  | 0 => .list []
  | n + 1 => .list [nestedList n]

theorem depth_nestedList (n : Nat) : (nestedList n).tree.depth = n + 1 := by
  induction n with
  | zero => rfl
  | succ n ih =>
    have outer : (nestedList (n + 1)).tree.depth = max (nestedList n).tree.depth 0 + 1 := rfl
    rw [outer, ih, Nat.max_zero]

theorem Reflection.read_ignoring (v : Json.Value) :
    Reflection.read .direct Json.maxLevels (Json.Value.object [("x", v)]).tree =
      .ok ⟨"", .project, none, none, none, none, [], [], [], [], []⟩ := by
  have other : shape.fieldOf? (.ofText "x") = none := rfl
  have ignored : Json.readRecord .direct shape (some (readField .direct 126)) ofFields
      (.object ([] ++ (.ofText "x", v.tree) :: []) .closed) = _ :=
    Json.readRecord_ignored (Json.read_ofText "x") other (Json.skip_tree v) [] []
  rw [Json.maxLevels, read_succ]
  exact ignored

/-- Every accepted text has a graph of bounded depth, while the values in it that stand for no field
nest without a limit. -/
theorem Reflection.ofText_bounded :
    (∀ s r, Reflection.ofText s = .ok r → r.Bounded) ∧
    ∀ n, ∃ s r j, Json.SpelledBy j s ∧ n ≤ j.depth ∧ Reflection.ofText s = .ok r := by
  constructor
  · exact fun s r h => bounded_of_within (within_of_ofText h)
  · intro n
    have spelled := Json.spelledBy_write .compact (.object [("x", nestedList n)])
    refine ⟨_, _, _, spelled, ?_, (ofText_spelled spelled _).2 (read_ignoring _)⟩
    have outer : (Json.Value.object [("x", nestedList n)]).tree.depth =
        max (nestedList n).tree.depth 0 + 1 := rfl
    rw [outer, depth_nestedList]
    omega

theorem Reflection.ofText_bounded_grandchild :
    ∃ r, Reflection.ofText "\x7b\"children\":[\x7b\"children\":[\x7b\"name\":\"c\"\x7d]\x7d]\x7d" =
        .ok r ∧ (r.at? [0, 0]).map Reflection.name = some "c" ∧ r.Bounded := by
  have accepted : Reflection.ofText
      "\x7b\"children\":[\x7b\"children\":[\x7b\"name\":\"c\"\x7d]\x7d]\x7d" =
      .ok ⟨"", .project, none, none, none, none, [], [], [], [⟨"", .project, none, none, none, none,
        [], [], [], [⟨"c", .project, none, none, none, none, [], [], [], [], []⟩], []⟩], []⟩ := by
    decide +kernel
  exact ⟨_, accepted, rfl, Reflection.ofText_bounded.1 _ _ accepted⟩

end DocTree
