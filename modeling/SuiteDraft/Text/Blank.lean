/-!
Blank characters, and what is left of a text when blanks are taken from its ends or from all of it.
-/

namespace SuiteDraft.Text

-- A character that separates words: a control that breaks or advances a line, one of the four
-- information separators, or a space of any width that is not zero.
def isBlank (c : Char) : Bool :=
  let n := c.toNat
  (9 ≤ n && n ≤ 13) || (28 ≤ n && n ≤ 32) || n == 0x85 || n == 0xA0 || n == 0x1680 ||
    (0x2000 ≤ n && n ≤ 0x200A) || n == 0x2028 || n == 0x2029 || n == 0x202F || n == 0x205F ||
    n == 0x3000

def trimLeft (s : List Char) : List Char := s.dropWhile isBlank

def trimRight (s : List Char) : List Char := (s.reverse.dropWhile isBlank).reverse

def trim (s : List Char) : List Char := trimRight (trimLeft s)

def unspaced (s : List Char) : List Char := s.filter fun c => !isBlank c

end SuiteDraft.Text
