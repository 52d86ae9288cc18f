import DocTree.Markdown.Basic

/-!
# Emphasis

Runs of asterisks, underscores and tildes open and close emphasis. A run that may
close looks for the nearest earlier run that may open and suits it; what stands
between the two becomes the content, and the runs passed over stay text.
-/
namespace DocTree.Markdown

structure Run where
  mark : Char
  count : Nat
  length : Nat
  canOpen : Bool
  canClose : Bool
  tail : List Char
  deriving Repr

def Run.both (r : Run) : Bool := r.canOpen && r.canClose

def Run.text (r : Run) : Inline := .text (List.replicate r.count r.mark ++ r.tail)

/-- Whether an opening run suits a closing one. Runs that could do either must not add up to a
multiple of three, unless both lengths are one; tildes must be equally many. -/
def Run.suits (opener closer : Run) : Bool :=
  opener.mark == closer.mark && (closer.mark != '~' || opener.length == closer.length) &&
    ((!opener.both && !closer.both) || (opener.length + closer.length) % 3 != 0 ||
      closer.length % 3 == 0)

inductive Node where
  | element (i : Inline)
  | run (r : Run)
  | backslash
  deriving Repr

def Node.ofText (s : List Char) : Node := .element (.text s)

def Node.isRun : Node → Bool
  | .run _ => true
  | _ => false

structure Pending where
  run : Run
  content : List Inline

def Pending.flatten (ps : List Pending) : List Inline :=
  ps.flatMap fun p => p.content ++ [p.run.text]

def findOpener (closer : Run) (ps : List Pending) :
    Option (List Inline × Run × List Pending) :=
  match ps.dropWhile fun p => !p.run.suits closer with
  | [] => none
  | p :: below =>
      let above := ps.takeWhile fun p => !p.run.suits closer
      some (Pending.flatten above ++ p.content, p.run, below)

def wrap (mark : Char) : Nat → List Inline → List Inline
  | 0, content => content
  | 1, content => if mark = '~' then [.deleted content] else [.emphasis content]
  | n + 2, content =>
      if mark = '~' then [.deleted content] else wrap mark n [.strong content]

structure Open where
  base : List Inline
  pending : List Pending

def Open.push (o : Open) (is : List Inline) : Open :=
  match o.pending with
  | [] => { o with base := is ++ o.base }
  | p :: ps => { o with pending := { p with content := is ++ p.content } :: ps }

def Open.hideTildes (o : Open) : Open :=
  { o with
    pending := o.pending.map fun p =>
      if p.run.mark = '~' then { p with run := { p.run with length := 0 } } else p }

/-- Closes what a run can close; returns how many of its marks are left. A run of tildes that finds
no opener hides the earlier ones from all later runs. -/
def Open.close : Nat → Run → Open → Nat × Open
  | 0, r, o => (r.count, o)
  | fuel + 1, r, o =>
      if r.count = 0 then (0, o)
      else
        match findOpener r o.pending with
        | none => (r.count, if r.mark = '~' then o.hideTildes else o)
        | some (content, opener, below) =>
            let n := min r.count opener.count
            let wrapped := wrap r.mark n content.reverse
            let o : Open :=
              if n < opener.count then
                ⟨o.base, ⟨{ opener with count := opener.count - n, tail := [] }, wrapped⟩ :: below⟩
              else Open.push ⟨o.base, below⟩ wrapped
            Open.close fuel { r with count := r.count - n } o

def Open.add (o : Open) : Node → Open
  | .element i => o.push [i]
  | .backslash => o.push [.hardBreak]
  | .run r =>
      let (left, o) := if r.canClose then Open.close r.count r o else (r.count, o)
      if left = 0 then o
      else
        let r := { r with count := left }
        if r.canOpen then { o with pending := ⟨r, []⟩ :: o.pending } else o.push [r.text]

def Open.finish (o : Open) : List Inline :=
  (Pending.flatten o.pending ++ o.base).reverse

/-- Nothing follows a backslash at the end, and it breaks no line when emphasis is read before
it. -/
def restoreLast (ns : List Node) : List Node :=
  match ns.getLast? with
  | some .backslash => if ns.any Node.isRun then ns.dropLast ++ [.ofText ['\\']] else ns
  | _ => ns

def readEmphasis (ns : List Node) : List Inline :=
  ((restoreLast ns).foldl Open.add ⟨[], []⟩).finish

end DocTree.Markdown
