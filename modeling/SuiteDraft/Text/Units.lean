/-!
Sixteen-bit code units. A code point beyond the basic plane is a high unit followed by a low unit;
a text may name the two halves apart, and a half without its partner stands for no character.
-/

namespace SuiteDraft.Text

def isHighUnit (n : Nat) : Bool := 0xD800 ≤ n && n ≤ 0xDBFF

def isLowUnit (n : Nat) : Bool := 0xDC00 ≤ n && n ≤ 0xDFFF

def joinUnits (high low : Nat) : Nat := 0x10000 + (high - 0xD800) * 0x400 + (low - 0xDC00)

-- The replacement character, which stands for what is no character.
def replacement : Char := '\ufffd'

/-- The characters of a sequence of code points in which units may stand alone: neighbouring halves
join, and a half that stands alone is replaced. -/
def ofCodePoints : List Nat → List Char
  | [] => []
  | [n] => if isHighUnit n || isLowUnit n then [replacement] else [Char.ofNat n]
  | n :: m :: rest =>
    if isHighUnit n && isLowUnit m then Char.ofNat (joinUnits n m) :: ofCodePoints rest
    else if isHighUnit n || isLowUnit n then replacement :: ofCodePoints (m :: rest)
    else Char.ofNat n :: ofCodePoints (m :: rest)

example : ofCodePoints [0xD83D, 0xDE00, 0xD83D] = ['😀', replacement] := by decide

end SuiteDraft.Text
