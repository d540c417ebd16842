import SuiteDraft.Json.Basic
import SuiteDraft.Text.Quoted

/-!
Two layouts of a JSON value: one without any blank, and one with a line for every item. Both write a
text in double quotes and escape in it the quote, the backslash and the controls below U+0020 only.
-/

namespace SuiteDraft.Json

def escapeChar (c : Char) : List Char :=
  if c == '"' then ['\\', '"']
  else if c == '\\' then ['\\', '\\']
  else if c == '\n' then ['\\', 'n']
  else if c == '\r' then ['\\', 'r']
  else if c == '\t' then ['\\', 't']
  else if c == '\x08' then ['\\', 'b']
  else if c == '\x0c' then ['\\', 'f']
  else if c.toNat < 32 then ['\\', 'u'] ++ Text.hexDigits 4 c.toNat
  else [c]

def quoteChars (s : List Char) : List Char := '"' :: s.flatMap escapeChar ++ ['"']

def quote (s : String) : String := String.ofList (quoteChars s.toList)

-- A number: its digits, with a point before the decimal places.
def writeNumber (units : Int) (places : Nat) : String :=
  if places = 0 then toString units
  else
    let digits := (toString units.natAbs).toList
    let digits := List.replicate (places + 1 - digits.length) '0' ++ digits
    let whole := digits.take (digits.length - places)
    let sign := if units < 0 then "-" else ""
    sign ++ String.ofList (whole ++ '.' :: digits.drop whole.length)

mutual

def compact : Json → String
  | null => "null"
  | bool true => "true"
  | bool false => "false"
  | number units places => writeNumber units places
  | string s => quote s
  | array items => "[" ++ ",".intercalate (compactItems items) ++ "]"
  | object members => "\x7b" ++ ",".intercalate (compactMembers members) ++ "\x7d"

def compactItems : List Json → List String
  | [] => []
  | j :: rest => compact j :: compactItems rest

def compactMembers : List (String × Json) → List String
  | [] => []
  | (name, j) :: rest => (quote name ++ ":" ++ compact j) :: compactMembers rest

end

def indentation (depth : Nat) : String := String.ofList (List.replicate (2 * depth) ' ')

-- Lines between two brackets, a level deeper than the brackets; no lines leave the brackets
-- together.
def bracket (opening closing : String) (depth : Nat) (lines : List String) : String :=
  if lines.isEmpty then opening ++ closing
  else
    let margin := indentation (depth + 1)
    opening ++ "\n" ++ ",\n".intercalate (lines.map (margin ++ ·)) ++ "\n" ++ indentation depth ++
      closing

mutual

def prettyAt (depth : Nat) : Json → String
  | null => "null"
  | bool true => "true"
  | bool false => "false"
  | number units places => writeNumber units places
  | string s => quote s
  | array items => bracket "[" "]" depth (prettyItems depth items)
  | object members => bracket "\x7b" "\x7d" depth (prettyMembers depth members)

def prettyItems (depth : Nat) : List Json → List String
  | [] => []
  | j :: rest => prettyAt (depth + 1) j :: prettyItems depth rest

def prettyMembers (depth : Nat) : List (String × Json) → List String
  | [] => []
  | (name, j) :: rest => (quote name ++ ": " ++ prettyAt (depth + 1) j) :: prettyMembers depth rest

end

def pretty (j : Json) : String := prettyAt 0 j

end SuiteDraft.Json
