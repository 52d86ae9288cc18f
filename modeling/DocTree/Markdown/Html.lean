import DocTree.Markdown.Basic
import DocTree.Markdown.InlineScan

/-!
# Writing HTML

Most blocks start on a line of their own: a line feed is written first unless the
output stands at the start of a line. The output is kept last character first
while it grows. The tokens of a block are made into elements when it is written,
because only then all definitions are known.
-/
namespace DocTree.Markdown

def escapeText (c : Char) : List Char :=
  if c = '&' then "&amp;".toList
  else if c = '<' then "&lt;".toList
  else if c = '>' then "&gt;".toList
  else [c]

def escapeAttribute (c : Char) : List Char :=
  if c = '"' then "&quot;".toList else if c = '\'' then "&#39;".toList else escapeText c

def highHexDigit (n : Nat) : Char := if n < 10 then Char.ofNat (48 + n) else Char.ofNat (55 + n)

def isAddressChar (c : Char) : Bool :=
  c.isAlphanum || "!#$%()*+,-./:;=?@^_~".toList.contains c

def escapeAddress (c : Char) : List Char :=
  if isAddressChar c then [c]
  else if c = '&' then "&amp;".toList
  else if c = '\'' then "&#x27;".toList
  else
    (String.singleton c).toUTF8.toList.flatMap fun b =>
      ['%', highHexDigit (b.toNat / 16), highHexDigit (b.toNat % 16)]

def titleAttribute (title : List Char) : List Char :=
  if title.isEmpty then []
  else " title=\"".toList ++ title.flatMap escapeAttribute ++ ['"']

mutual

def Inline.plain : Inline → List Char
  | .text s | .code s | .html s => s.flatMap escapeAttribute
  | .softBreak | .hardBreak => [' ']
  | .emphasis is | .strong is | .deleted is | .link _ _ is | .image _ _ is => plainAll is

def plainAll : List Inline → List Char
  | [] => []
  | i :: is => i.plain ++ plainAll is

end

mutual

def Inline.write : Inline → List Char
  | .text s => s.flatMap escapeText
  | .code s => "<code>".toList ++ s.flatMap escapeText ++ "</code>".toList
  | .html s => s
  | .softBreak => ['\n']
  | .hardBreak => "<br />\n".toList
  | .emphasis is => "<em>".toList ++ writeAll is ++ "</em>".toList
  | .strong is => "<strong>".toList ++ writeAll is ++ "</strong>".toList
  | .deleted is => "<del>".toList ++ writeAll is ++ "</del>".toList
  | .link destination title is =>
      "<a href=\"".toList ++ destination.flatMap escapeAddress ++ ['"'] ++ titleAttribute title ++
        ['>'] ++ writeAll is ++ "</a>".toList
  | .image destination title is =>
      "<img src=\"".toList ++ destination.flatMap escapeAddress ++ "\" alt=\"".toList ++
        plainAll is ++ ['"'] ++ titleAttribute title ++ " />".toList

def writeAll : List Inline → List Char
  | [] => []
  | i :: is => i.write ++ writeAll is

end

abbrev Output := List Char

namespace Output

def put (s : List Char) (out : Output) : Output := s.reverse ++ out

def puts (s : String) (out : Output) : Output := out.put s.toList

def freshLine (out : Output) : Output :=
  match out with
  | [] => []
  | c :: _ => if c = '\n' then out else '\n' :: out

end Output

def Alignment.attribute : Alignment → String
  | .unset => ""
  | .left => " style=\"text-align: left\""
  | .center => " style=\"text-align: center\""
  | .right => " style=\"text-align: right\""

structure Context where
  definitions : List Definition
  containers : List Container

namespace Context

def inside (k : Container) (ctx : Context) : Context :=
  { ctx with containers := ctx.containers ++ [k] }

def setting (ctx : Context) (inCell : Bool) (stop : Nat) : Setting :=
  ⟨ctx.definitions, ctx.containers, inCell, stop⟩

def text (ctx : Context) (stop : Nat) (ts : List Token) : List Char :=
  writeAll ((ctx.setting false stop).inlines ts)

def cell (ctx : Context) (c : Cell) : List Char :=
  writeAll ((ctx.setting true c.stop).inlines c.tokens)

end Context

def writeCells (element : String) (ctx : Context) : List Alignment → List Cell → List Char
  | a :: as, c :: cs =>
      ("<" ++ element ++ a.attribute ++ ">").toList ++ ctx.cell c ++
        ("</" ++ element ++ ">").toList ++ writeCells element ctx as cs
  | _, _ => []

def language (info : Option (List Char)) : List Char :=
  (info.getD []).takeWhile (· != ' ')

def writeParts : List (Inline ⊕ (Output → Output)) → Output → Output
  | [], out => out
  | .inl i :: ps, out => writeParts ps (out.put i.write)
  | .inr write :: ps, out => writeParts ps (write out)

mutual

def Block.write : Block → Context → Output → Output
  | .paragraph e ts, ctx, out => ((out.freshLine.puts "<p>").put (ctx.text e.stop ts)).puts "</p>\n"
  | .heading e level ts, ctx, out =>
      let tag := "h" ++ toString level
      let opened := (out.freshLine.puts ("<" ++ tag ++ ">")).put (ctx.text e.stop ts)
      opened.puts ("</" ++ tag ++ ">\n")
  | .code _ info text, _, out =>
      let opening :=
        match language info with
        | [] => "<pre><code>".toList
        | l => "<pre><code class=\"language-".toList ++ l.flatMap escapeAttribute ++ "\">".toList
      ((out.freshLine.put opening).put (text.flatMap escapeText)).puts "</code></pre>\n"
  | .html _ text, _, out => out.put text
  | .rule _, _, out => out.freshLine.puts "<hr />\n"
  | .quote _ blocks, ctx, out =>
      (writeBlocks blocks (ctx.inside .quote) (out.freshLine.puts "<blockquote>\n")).puts
        "</blockquote>\n"
  | .list _ first tight items, ctx, out =>
      match first with
      | none => (writeItems tight items ctx (out.freshLine.puts "<ul>\n")).puts "</ul>\n"
      | some n =>
          let opening := if n = 1 then "<ol>\n" else "<ol start=\"" ++ toString n ++ "\">\n"
          (writeItems tight items ctx (out.freshLine.puts opening)).puts "</ol>\n"
  | .table _ alignments header rows, ctx, out =>
      let out := (out.puts "<table><thead><tr>").put (writeCells "th" ctx alignments header)
      let body := rows.flatMap fun row =>
        "<tr>".toList ++ writeCells "td" ctx alignments row ++ "</tr>\n".toList
      ((out.puts "</tr></thead><tbody>\n").put body).puts "</tbody></table>\n"

def writeBlocks : List Block → Context → Output → Output
  | [], _, out => out
  | b :: bs, ctx, out => writeBlocks bs ctx (b.write ctx out)

def writeItems (tight : Bool) : List Item → Context → Output → Output
  | [], _, out => out
  | .mk indent stop blocks :: items, ctx, out =>
      let inner := ctx.inside (.item indent)
      let out := out.freshLine.puts "<li>"
      let out :=
        if tight then writeParts ((inner.setting false stop).parts (itemPieces blocks inner)) out
        else writeBlocks blocks inner out
      writeItems tight items ctx (out.puts "</li>\n")

/-- The content of an item of a tight list, whose paragraphs are shown without tags: their text is
one with the blocks between them. -/
def itemPieces : List Block → Context → List (Piece (Output → Output))
  | [], _ => []
  | .paragraph _ ts :: bs, ctx => ts.map .token ++ itemPieces bs ctx
  | b :: bs, ctx => .block b.extent (b.write ctx) :: itemPieces bs ctx

end

end DocTree.Markdown
