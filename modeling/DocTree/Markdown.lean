import DocTree.Markdown.BlockScan
import DocTree.Markdown.Html

/-!
# Markdown to HTML

The blocks of the text are read first, then the inline elements of each with the
definitions found anywhere in the text.
-/
namespace DocTree.Markdown

def toHtml (s : String) : String :=
  let (blocks, definitions) := readBlocks s.toList
  String.ofList (writeBlocks blocks ⟨definitions, []⟩ []).reverse

end DocTree.Markdown
