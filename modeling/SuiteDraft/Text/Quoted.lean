import SuiteDraft.Text.UnprintableTable

/-!
Names quoted for a diagnostic: within single quotes, or within double quotes when the name holds a
single quote and no double one; quotes, backslashes and unprintable characters are escaped.
-/

namespace SuiteDraft.Text

def isPrintable (c : Char) : Bool :=
  let n := c.toNat
  !(if n < 0x10000 then unprintableBasic else unprintableBeyond).any fun r => r.1 ≤ n && n ≤ r.2

def hexDigit (n : Nat) : Char := if n < 10 then Char.ofNat (48 + n) else Char.ofNat (87 + n)

-- The lower-case digits of `n` in base sixteen, exactly `width` of them.
def hexDigits (width n : Nat) : List Char :=
  match width with
  | 0 => []
  | w + 1 => hexDigits w (n / 16) ++ [hexDigit (n % 16)]

-- The escape of an unprintable character: the shortest of two, four or eight digits.
def escapeCode (c : Char) : List Char :=
  let n := c.toNat
  if n < 0x100 then ['\\', 'x'] ++ hexDigits 2 n
  else if n < 0x10000 then ['\\', 'u'] ++ hexDigits 4 n
  else ['\\', 'U'] ++ hexDigits 8 n

def quoteChar (quote c : Char) : List Char :=
  if c == quote || c == '\\' then ['\\', c]
  else if c == '\t' then ['\\', 't']
  else if c == '\n' then ['\\', 'n']
  else if c == '\r' then ['\\', 'r']
  else if isPrintable c then [c]
  else escapeCode c

def quoted (s : String) : String :=
  let cs := s.toList
  let quote := if cs.contains '\'' && !cs.contains '"' then '"' else '\''
  String.ofList (quote :: cs.flatMap (quoteChar quote) ++ [quote])

example : quoted "it's" = "\"it's\"" := by decide +kernel
example : quoted "a\\\n\x7f" = "'a\\\\\\n\\x7f'" := by decide +kernel

end SuiteDraft.Text
