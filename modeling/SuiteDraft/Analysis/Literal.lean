import SuiteDraft.Analysis.Escape
import SuiteDraft.Text.Reference
import SuiteDraft.Tree.Basic

/-!
The value of a string literal, or of a template without substitutions: its pieces with escapes and
character references decoded, and the halves of pairs joined.
-/

namespace SuiteDraft.Literal

-- The code points of one piece of a literal; quotes and other marks have none.
def piece (t : Tree) : Except LiteralError (List Nat) :=
  match t.kind with
  | .stringFragment => .ok (Escape.codePoints t.text.toList)
  | .escapeSequence => Escape.decode t.text.toList
  | .characterReference => .ok (Escape.codePoints (Text.resolveReferences t.text).toList)
  | _ => .ok []

-- The code points of the pieces up to a substitution; with a substitution there is no value.
def pieces : List Tree → Except LiteralError (Option (List Nat))
  | [] => .ok (some [])
  | c :: cs =>
    if c.kind = .templateSubstitution then .ok none
    else do
      let head ← piece c
      let rest ← pieces cs
      return rest.map (head ++ ·)

def isLiteral (t : Tree) : Bool := t.kind = .string || t.kind = .templateString

/-- The value of a string or template; nothing for any other node and for a template with
substitutions. -/
def value? (t : Tree) : Except LiteralError (Option String) :=
  if isLiteral t then do
    let points ← pieces t.children
    return points.map fun ps => String.ofList (Text.ofCodePoints ps)
  else .ok none

end SuiteDraft.Literal
