import DocTree.Reflection.Basic

/-!
# Types and signatures as text

A type is written the way it would stand in a declaration. Next to an operator
stand only types that hold together by themselves; the others are put in
parentheses there.
-/
namespace DocTree

def inQuotes (s : String) : String :=
  "\"" ++ String.ofList (s.toList.flatMap fun c => if c = '"' then ['\\', '"'] else [c]) ++ "\""

def isIdentifierStart (c : Char) : Bool := c.isAlpha || c == '_' || c == '$'

def isIdentifierRest (c : Char) : Bool := isIdentifierStart c || c.isDigit

def isIdentifier (s : String) : Bool :=
  match s.toList with
  | [] => false
  | c :: cs => isIdentifierStart c && cs.all isIdentifierRest

def memberName (name : String) : String := if isIdentifier name then name else inQuotes name

def Reflection.isFunctionLiteral (r : Reflection) : Bool :=
  r.children.isEmpty && !r.signatures.isEmpty

def TypeExpr.isLoose : TypeExpr → Bool
  | .union _ | .intersection _ => true
  | .inline declaration => declaration.isFunctionLiteral
  | _ => false

/-- The text `s` of the type `t` as it stands next to an operator. -/
def TypeExpr.asOperand (t : TypeExpr) (s : String) : String :=
  if t.isLoose then "(" ++ s ++ ")" else s

mutual

def TypeExpr.text : TypeExpr → String
  | .intrinsic name | .parameter name | .unknown name => name
  | .reference name arguments =>
      match typeTexts arguments with
      | [] => name
      | texts => name ++ "<" ++ ", ".intercalate texts ++ ">"
  | .array element => element.asOperand element.text ++ "[]"
  | .union members => " | ".intercalate (typeTexts members)
  | .intersection members => " & ".intercalate (operandTexts members)
  | .tuple elements => "[" ++ ", ".intercalate (typeTexts elements) ++ "]"
  | .stringLiteral value => inQuotes value
  | .operator name target => name ++ " " ++ target.asOperand target.text
  | .inline declaration => declaration.inlineText
  | .other => "unknown"

def typeTexts : List TypeExpr → List String
  | [] => []
  | t :: ts => t.text :: typeTexts ts

def operandTexts : List TypeExpr → List String
  | [] => []
  | t :: ts => t.asOperand t.text :: operandTexts ts

def declaredText : Option TypeExpr → String
  | none => "any"
  | some t => t.text

def Reflection.inlineText : Reflection → String
  | ⟨_, _, _, _, _, _, _, signatures, _, children, _⟩ =>
      match children, signatures with
      | [], [] => "\x7b\x7d"
      | [], s :: _ => s.callText " => "
      | c :: cs, _ => "\x7b " ++ "; ".intercalate (memberTexts (c :: cs)) ++ " \x7d"

def Reflection.callText (link : String) : Reflection → String
  | ⟨_, _, _, _, type, _, _, _, parameters, _, typeParameters⟩ =>
      let params := typeParameterTexts typeParameters
      (if params.isEmpty then "" else "<" ++ ", ".intercalate params ++ ">") ++
        "(" ++ ", ".intercalate (parameterTexts parameters) ++ ")" ++ link ++ declaredText type

def memberTexts : List Reflection → List String
  | [] => []
  | r :: rs => r.memberText :: memberTexts rs

/-- A member of an inline declaration. A method is written by its first signature. -/
def Reflection.memberText : Reflection → String
  | ⟨name, kind, flags, _, type, _, _, signatures, _, _, _⟩ =>
      match kind, signatures with
      | .method, s :: _ => memberName name ++ s.callText ": "
      | _, _ =>
          memberName name ++ (if (flags.bind Flags.isOptional).getD false then "?" else "") ++
            ": " ++ declaredText type

def typeParameterTexts : List Reflection → List String
  | [] => []
  | ⟨name, _, _, _, type, _, _, _, _, _, _⟩ :: rs =>
      (match type with
        | some t => name ++ " extends " ++ t.text
        | none => name) :: typeParameterTexts rs

def parameterTexts : List Reflection → List String
  | [] => []
  | ⟨name, _, flags, _, type, _, _, _, _, _, _⟩ :: rs =>
      ((if (flags.bind Flags.isRest).getD false then "..." else "") ++ name ++
        (if (flags.bind Flags.isOptional).getD false then "?" else "") ++ ": " ++
        declaredText type) :: parameterTexts rs

end

def Reflection.signatureText (r : Reflection) : String := r.callText " => "

def Reflection.typeText (r : Reflection) : String := declaredText r.type

end DocTree
