import SuiteDraft.Path.Basic
import SuiteDraft.Source.Glyph

/-!
Requests of a client: a path and the values that a query gives under names. In a target both are
written with percent signs for what they cannot hold themselves, and a plus sign in a query is a
blank.
-/

namespace SuiteDraft.Server

/-- A request to read something. -/
structure Request where
  path : String
  query : List (String × String) := []
  deriving DecidableEq

namespace Request

def hexValue? (c : Char) : Option Nat :=
  if '0' ≤ c && c ≤ '9' then some (c.toNat - '0'.toNat)
  else if 'a' ≤ c && c ≤ 'f' then some (c.toNat - 'a'.toNat + 10)
  else if 'A' ≤ c && c ≤ 'F' then some (c.toNat - 'A'.toNat + 10)
  else none

-- The bytes of a text in which a percent sign and two digits stand for a byte.
def bytes : List Char → List UInt8
  | '%' :: a :: b :: rest =>
    match hexValue? a, hexValue? b with
    | some m, some n => (16 * m + n).toUInt8 :: bytes rest
    | _, _ => '%'.toUInt8 :: bytes (a :: b :: rest)
  | c :: rest => String.utf8EncodeChar c ++ bytes rest
  | [] => []

def decode (text : List Char) : String := Glyph.textOf (Glyph.ofBytes (bytes text))

def decodeQuery (text : List Char) : String :=
  decode (text.map fun c => if c == '+' then ' ' else c)

def cut (sep : Char) (text : List Char) : List Char × List Char :=
  (text.takeWhile (· != sep), (text.dropWhile (· != sep)).drop 1)

def pairs (query : List Char) : List (String × String) :=
  ((splitAt '&' query).filter (!·.isEmpty)).map fun piece =>
    (decodeQuery (cut '=' piece).1, decodeQuery (cut '=' piece).2)

-- The request of a target; what follows a number sign is not part of it.
def ofTarget (target : String) : Request :=
  let (path, query) := cut '?' (cut '#' target.toList).1
  ⟨decode path, pairs query⟩

def value? (r : Request) (name : String) : Option String := r.query.reverse.lookup name

example : ofTarget "/a%20b?path=c+d&n=1&n=2" =
    ⟨"/a b", [("path", "c d"), ("n", "1"), ("n", "2")]⟩ := by decide +kernel

end Request

end SuiteDraft.Server
