import SuiteDraft.Text.Blank

/-!
Rules of nested ignore files. Each file's lines speak of its own directory; before the rules of a
repository are put together, every line is made to speak of the repository's root.
-/

namespace SuiteDraft.Ignore

def trimEnd (c : Char) (s : List Char) : List Char := (s.reverse.dropWhile (· == c)).reverse

-- A line that gives no rule: one without characters, or a comment after blanks.
def isSilent (line : List Char) : Bool :=
  line.isEmpty || (Text.trimLeft line).head? == some '#'

/-- The body of a rule, put in terms of the root; `base` is the directory of its file, empty for the
root itself. A slash anywhere but at the end ties the rule to its directory. -/
def relocateBody (body base : List Char) : List Char :=
  let lead := if base.isEmpty then [] else base ++ ['/']
  match body with
  | '/' :: rest => '/' :: lead ++ rest
  | _ =>
    if (trimEnd '/' body).contains '/' then '/' :: lead ++ body
    else lead ++ ['*', '*', '/'] ++ body

-- A line of the ignore file in the directory `base`, put in terms of the repository's root.
def relocate (line base : List Char) : Option (List Char) :=
  let line := trimEnd '\n' line
  if isSilent line then none
  else
    match line with
    | '!' :: body => some ('!' :: relocateBody body base)
    | body => some (relocateBody body base)

def relocateText (line base : String) : Option String :=
  (relocate line.toList base.toList).map String.ofList

example : relocateText "/build\n" "web" = some "/web/build" := by decide +kernel
example : relocateText "!keep.jsx\n" "a/b" = some "!a/b/**/keep.jsx" := by decide +kernel
example : relocateText "# note\n" "a" = none := by decide +kernel

end SuiteDraft.Ignore
