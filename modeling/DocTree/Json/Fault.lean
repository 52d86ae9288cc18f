import DocTree.Text.Quoted

/-!
# Why a text is refused

A fault is the first thing in text order that keeps a text from being read as a
value of the wanted shape. Its category tells a text that stops too early from
one that is not well formed and from one that holds the wrong data.
-/
namespace DocTree.Json

inductive Unfinished where
  | list
  | object
  | text
  | value
  deriving DecidableEq, Repr

inductive Malformed where
  | colonExpected
  | listSeparatorExpected
  | objectSeparatorExpected
  | wordExpected
  | valueExpected
  | invalidEscape
  | invalidNumber
  | numberOutOfRange
  | controlCharacter
  | keyNotText
  | loneSurrogate
  | surrogateCutShort
  | trailingComma
  | trailingCharacters
  | tooDeep
  deriving DecidableEq, Repr

inductive Found where
  | null
  | boolean (b : Bool)
  | integer (n : Int)
  | float (digits : String)
  | text (s : String)
  | sequence
  | map
  deriving DecidableEq, Repr

/-- What is wrong with a text or with the data in it. Where in the text it was found is left out. -/
inductive Fault where
  | unfinished (part : Unfinished)
  | malformed (what : Malformed)
  | invalidType (found : Found) (expected : String)
  | invalidValue (found : Found) (expected : String)
  | invalidLength (length : Nat) (expected : String)
  | missingField (name : String)
  | duplicateField (name : String)
  deriving DecidableEq, Repr

inductive Category where
  | unfinished
  | malformed
  | mismatched
  deriving DecidableEq, Repr

def Fault.category : Fault → Category
  | .unfinished _ => .unfinished
  | .malformed _ => .malformed
  | _ => .mismatched

def Unfinished.noun : Unfinished → String
  | .list => "a list"
  | .object => "an object"
  | .text => "a string"
  | .value => "a value"

def Malformed.message : Malformed → String
  | .colonExpected => "expected `:`"
  | .listSeparatorExpected => "expected `,` or `]`"
  | .objectSeparatorExpected => "expected `,` or `\x7d`"
  | .wordExpected => "expected ident"
  | .valueExpected => "expected value"
  | .invalidEscape => "invalid escape"
  | .invalidNumber => "invalid number"
  | .numberOutOfRange => "number out of range"
  | .controlCharacter => "control character (\\u0000-\\u001F) found while parsing a string"
  | .keyNotText => "key must be a string"
  | .loneSurrogate => "lone leading surrogate in hex escape"
  | .surrogateCutShort => "unexpected end of hex escape"
  | .trailingComma => "trailing comma"
  | .trailingCharacters => "trailing characters"
  | .tooDeep => "recursion limit exceeded"

def Found.phrase : Found → String
  | .null => "null"
  | .boolean b => "boolean `" ++ (if b then "true" else "false") ++ "`"
  | .integer n => "integer `" ++ toString n ++ "`"
  | .float digits => "floating point `" ++ digits ++ "`"
  | .text s => "string " ++ Text.quoted s
  | .sequence => "sequence"
  | .map => "map"

def Fault.message : Fault → String
  | .unfinished part => "EOF while parsing " ++ part.noun
  | .malformed what => what.message
  | .invalidType found expected => "invalid type: " ++ found.phrase ++ ", expected " ++ expected
  | .invalidValue found expected => "invalid value: " ++ found.phrase ++ ", expected " ++ expected
  | .invalidLength length expected =>
      "invalid length " ++ toString length ++ ", expected " ++ expected
  | .missingField name => "missing field `" ++ name ++ "`"
  | .duplicateField name => "duplicate field `" ++ name ++ "`"

end DocTree.Json
