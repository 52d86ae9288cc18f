import DocTree.Proofs.Entry.Pruning

/-!
# The text of a signature and its entry

A signature is written as a whole in one line of text, and piece by piece in its entry: the entry
lists its parameters with their flags and types, and has the type of what is returned. The two
agree. When all parameters are shown, the line is put together from what the entry says and from
the type parameters, which only the line shows; leaving out parameters that are not exported does
not change the line.
-/
namespace DocTree

open Json (Value)

def Json.Value.textUnder (key : String) (v : Value) : String :=
  match v.under key with
  | [.text s] => s
  | _ => ""

def Json.Value.listUnder (key : String) (v : Value) : List Value :=
  match v.under key with
  | [.list items] => items
  | _ => []

namespace Entry

open Json.Value (under_append under_absentOr under_absent)

def listedParameter (p : Value) : String :=
  (if showsFlag "isRest" p then "..." else "") ++ p.textUnder "name" ++
    (if showsFlag "isOptional" p then "?" else "") ++ ": " ++ p.textUnder "type"

def listedSignature (typeParameters : String) (g : Value) : String :=
  typeParameters ++ "(" ++ ", ".intercalate ((g.listUnder "parameters").map listedParameter) ++
    ") => " ++ g.textUnder "returnType"

def typeParameterList (rs : List Reflection) : String :=
  if (typeParameterTexts rs).isEmpty then ""
  else "<" ++ ", ".intercalate (typeParameterTexts rs) ++ ">"

def headerKeys : List String := ["documentation", "fileName", "flags", "kind", "name"]

theorem key_of_mem_absentOr {α : Type} {key : String} {encode : α → Value} {o : Option α}
    {m : String × Value} (h : m ∈ absentOr key encode o) : m.1 = key := by
  cases o with
  | none => exact absurd h List.not_mem_nil
  | some a => rw [List.mem_singleton.1 h]

theorem Header.key_mem (kind : String) (h : Header) :
    ∀ m ∈ h.encodeMembers kind, m.1 ∈ headerKeys := by
  intro m hm
  simp only [encodeMembers, List.mem_append, List.mem_cons, List.not_mem_nil, or_false] at hm
  rcases hm with ((hm | hm) | hm) | rfl | rfl
  · rw [key_of_mem_absentOr hm]
    decide
  · rw [key_of_mem_absentOr hm]
    decide
  · rw [key_of_mem_absentOr hm]
    decide
  · simp [headerKeys]
  · simp [headerKeys]

theorem Header.under_other {key : String} (hkey : key ∉ headerKeys) (kind : String) (h : Header) :
    (Value.object (h.encodeMembers kind)).under key = [] :=
  under_absent fun m hm hk => hkey (hk ▸ h.key_mem kind m hm)

theorem Parameter.under_type (p : Parameter) : p.encode.under "type" = [.text p.type] := by
  rw [encode, under_append, under_append, Header.under_other (by decide), under_absentOr]
  simp [Value.under]

theorem Signature.under_parameters (g : Signature) :
    g.encode.under "parameters" = [.list (g.parameters.map Parameter.encode)] := by
  rw [encode, under_append, Header.under_other (by decide)]
  simp [Value.under]

theorem Signature.under_returnType (g : Signature) :
    g.encode.under "returnType" = [.text g.returnType] := by
  rw [encode, under_append, Header.under_other (by decide)]
  simp [Value.under]

theorem Signature.under_type (g : Signature) : g.encode.under "type" = [.text g.type] := by
  rw [encode, under_append, Header.under_other (by decide)]
  simp [Value.under]

theorem Parameter.listed (p : Parameter) :
    listedParameter p.encode =
      (if (p.header.marks.bind (·.flags.isRest)).getD false then "..." else "") ++ p.header.name ++
        (if (p.header.marks.bind (·.flags.isOptional)).getD false then "?" else "") ++ ": " ++
        p.type := by
  have rest : showsFlag "isRest" p.encode = (p.header.marks.bind (·.flags.isRest)).getD false :=
    p.written.showsFlag_eq (by simp [flagsByKey])
  have optional : showsFlag "isOptional" p.encode =
      (p.header.marks.bind (·.flags.isOptional)).getD false :=
    p.written.showsFlag_eq (by simp [flagsByKey])
  rw [listedParameter, rest, optional, Value.textUnder, p.written.under_name, Value.textUnder,
    p.under_type]

theorem Signature.listed (typeParameters : String) (g : Signature) :
    listedSignature typeParameters g.encode =
      typeParameters ++ "(" ++
        ", ".intercalate (g.parameters.map fun p => listedParameter p.encode) ++ ") => " ++
        g.returnType := by
  rw [listedSignature, Value.listUnder, g.under_parameters, Value.textUnder, g.under_returnType,
    List.map_map]
  rfl

theorem parameterTexts_cons (r : Reflection) (rs : List Reflection) :
    parameterTexts (r :: rs) =
      ((if r.isRest then "..." else "") ++ r.name ++ (if r.isOptional then "?" else "") ++ ": " ++
        r.typeText) :: parameterTexts rs := by
  cases r
  rfl

theorem signatureText_eq (r : Reflection) :
    r.signatureText = typeParameterList r.typeParameters ++ "(" ++
      ", ".intercalate (parameterTexts r.parameters) ++ ") => " ++ r.typeText := by
  cases r
  simp only [Reflection.signatureText, Reflection.callText, typeParameterList, Reflection.typeText,
    String.append_assoc]
  rfl

namespace Settings

variable (s : Settings)

theorem header_flag (flag : Flags → Option Bool) (r : Reflection) :
    ((s.header r).marks.bind (flag ·.flags)).getD false = r.hasFlag flag := by
  rw [header, Reflection.hasFlag]
  cases r.flags <;> rfl

theorem parameterTexts_eq (rs : List Reflection) :
    parameterTexts rs = (rs.map s.parameter).map fun p => listedParameter p.encode := by
  induction rs with
  | nil => rfl
  | cons r rs ih =>
    have isRest_eq := s.header_flag Flags.isRest r
    have isOptional_eq := s.header_flag Flags.isOptional r
    rw [parameterTexts_cons, ih, List.map_cons, List.map_cons, Parameter.listed, parameter,
      isRest_eq, isOptional_eq]
    rfl

/-- With all parameters shown the line of a signature can be put together from its entry and its
type parameters. Without those that are not exported the line is the same, the type of what is
returned as well, and the parameters are those that are shown as exported. -/
theorem signature_line (renderer : Renderer) (directory : String) (r : Reflection) :
    let all := (Settings.signature ⟨renderer, ⟨true⟩, directory⟩ r).encode
    let exported := (Settings.signature ⟨renderer, ⟨false⟩, directory⟩ r).encode
    all.under "type" = [.text (listedSignature (typeParameterList r.typeParameters) all)] ∧
      exported.under "type" = all.under "type" ∧
      exported.under "returnType" = all.under "returnType" ∧
      exported.listUnder "parameters" = (all.listUnder "parameters").filter showsExport := by
  intro all exported
  have all_parameters : ((showingAll renderer directory).signature r).parameters =
      r.parameters.map (showingAll renderer directory).parameter :=
    congrArg (List.map _) (List.filter_eq_self.2 fun _ _ => rfl)
  have pruned := signature_prune renderer directory r
  refine ⟨?_, ?_, ?_, ?_⟩
  · rw [Signature.under_type, Signature.listed, all_parameters, ← parameterTexts_eq]
    exact congrArg (fun line => [Value.text line]) (signatureText_eq r)
  · rw [Signature.under_type, Signature.under_type]
    rfl
  · rw [Signature.under_returnType, Signature.under_returnType]
    rfl
  · rw [Value.listUnder, Signature.under_parameters, Value.listUnder, Signature.under_parameters,
      pruned, List.filter_map]
    rfl

end Settings

end Entry

end DocTree
