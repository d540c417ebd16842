import SuiteDraft.Text.CaseTable

/-!
Upper case, by the full mappings of Unicode 14: one character may become several.
-/

namespace SuiteDraft.Text

def CaseRun.holds (r : CaseRun) (n : Nat) : Bool :=
  r.first ≤ n && n ≤ r.last && (n - r.first) % r.step == 0

-- The upper case of one character; a character that has none stands for itself.
def upper (c : Char) : List Char :=
  let n := c.toNat
  if n < 128 then [c.toUpper]
  else
    match upperSequences.lookup n with
    | some ms => ms.map Char.ofNat
    | none =>
      match upperRuns.find? (·.holds n) with
      | some r => [Char.ofNat ((n : Int) + r.shift).toNat]
      | none => [c]

-- The text with its first character in upper case and the rest as it was.
def capitalize (s : String) : String :=
  match s.toList with
  | [] => ""
  | c :: rest => String.ofList (upper c ++ rest)

/-- Lower case of the twenty-six Latin letters alone. It is enough to compare with a lower-case word
without the letter `k`, the only one that is also the lower case of a character beyond ASCII by
itself. -/
def lowerLatin (s : String) : String := String.ofList (s.toList.map Char.toLower)

example : capitalize "" = "" := by decide
example : (upper 'ß') = ['S', 'S'] := by decide +kernel
example : (upper 'ÿ') = ['Ÿ'] := by decide +kernel

end SuiteDraft.Text
