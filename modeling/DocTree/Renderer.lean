import DocTree.Markdown

/-!
# Renderers

A renderer turns the text of a comment into the block that an entry carries.
-/
namespace DocTree

inductive Renderer where
  | markdown
  | plain
  deriving DecidableEq, Repr

namespace Renderer

def name : Renderer → String
  | markdown => "markdown"
  | plain => "plain"

def ofName? (s : String) : Option Renderer :=
  if s = "markdown" ∨ s = "md" ∨ s = "html" then some markdown
  else if s = "plain" ∨ s = "text" then some plain
  else none

def unknownMessage (s : String) : String := "unknown renderer: " ++ s ++ ". Use markdown or plain"

def render : Renderer → String → String
  | markdown, s => Markdown.toHtml s
  | plain, s => s

end Renderer

end DocTree
