/-!
Patterns that match a text as it stands. A character that means something else in a pattern, and the
slash that would end it, gets a backslash in front.
-/

namespace SuiteDraft.Pattern

def specials : List Char :=
  ['.', '*', '+', '?', '^', '$', '\x7b', '\x7d', '(', ')', '|', '[', ']', '\\', '/']

def escapeChar (c : Char) : List Char := if c ∈ specials then ['\\', c] else [c]

def escape (s : List Char) : List Char := s.flatMap escapeChar

def source (text : String) : String := String.ofList (escape text.toList)

-- The pattern as a literal that does not tell upper case from lower case.
def literal (text : String) : String := "/" ++ source text ++ "/i"

example : source "a.b/(c)" = "a\\.b\\/\\(c\\)" := by decide +kernel

end SuiteDraft.Pattern
