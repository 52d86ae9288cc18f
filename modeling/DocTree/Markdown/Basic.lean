import DocTree.Markdown.Place

/-!
# Markdown documents

A document is a list of blocks. Blocks that hold text keep it as tokens until all
link definitions of the document are known; the inline elements are then made of
them. Each block says where it starts and stops in the text of the document.
-/
namespace DocTree.Markdown

inductive Alignment where
  | unset
  | left
  | center
  | right
  deriving DecidableEq, Repr

/-- What a part of a line is before it is known what its surroundings make of it. -/
inductive TokenKind where
  | text
  | reference (s : List Char)
  | softBreak
  | hardBreak (backslash : Bool)
  | marks (mark : Char) (count : Nat) (canOpen canClose : Bool)
  | backticks (count : Nat) (escaped : Bool)
  | angle
  | opening (image : Bool)
  | closing (named : Bool)

structure Token where
  kind : TokenKind
  place : Place
  stop : Nat

namespace Token

def source (t : Token) : List Char := t.place.upTo t.stop

def isTextTo (offset : Nat) (t : Token) : Bool :=
  match t.kind with
  | .text => t.stop == offset
  | _ => false

def addText (p : Place) (stop : Nat) (ts : List Token) : List Token :=
  if stop ≤ p.offset then ts
  else
    match ts with
    | t :: more =>
        if t.isTextTo p.offset then { t with stop := stop } :: more else ⟨.text, p, stop⟩ :: ts
    | [] => [⟨.text, p, stop⟩]

end Token

structure Extent where
  start : Nat
  stop : Nat
  deriving DecidableEq, Repr

structure Cell where
  tokens : List Token
  stop : Nat

mutual

inductive Block where
  | paragraph (extent : Extent) (tokens : List Token)
  | heading (extent : Extent) (level : Nat) (tokens : List Token)
  | code (extent : Extent) (info : Option (List Char)) (text : List Char)
  | html (extent : Extent) (text : List Char)
  | rule (extent : Extent)
  | quote (extent : Extent) (blocks : List Block)
  /-- A list with its first number, if it is numbered. A tight list shows its paragraphs bare. -/
  | list (extent : Extent) (first : Option Nat) (tight : Bool) (items : List Item)
  | table (extent : Extent) (alignments : List Alignment) (header : List Cell)
      (rows : List (List Cell))

inductive Item where
  | mk (indent stop : Nat) (blocks : List Block)

end

def Block.extent : Block → Extent
  | .paragraph e _ | .heading e _ _ | .code e _ _ | .html e _ | .rule e | .quote e _
  | .list e _ _ _ | .table e _ _ _ => e

inductive Inline where
  | text (s : List Char)
  | code (s : List Char)
  | html (s : List Char)
  | softBreak
  | hardBreak
  | emphasis (content : List Inline)
  | strong (content : List Inline)
  | deleted (content : List Inline)
  | link (destination title : List Char) (content : List Inline)
  | image (destination title : List Char) (content : List Inline)
  deriving Repr

structure Definition where
  label : List Char
  destination : List Char
  title : List Char
  deriving Repr

end DocTree.Markdown
