/-!
Things in the order of their names, by the numbers of the characters.
-/

namespace SuiteDraft

variable {α : Type}

def comesFirst : List Char → List Char → Bool
  | [], _ => true
  | _ :: _, [] => false
  | a :: as, b :: bs => a < b || (a == b && comesFirst as bs)

def insertInOrder (name : α → String) (x : α) : List α → List α
  | [] => [x]
  | y :: rest =>
    if comesFirst (name x).toList (name y).toList then x :: y :: rest
    else y :: insertInOrder name x rest

-- The things in the order of their names; things of one name stay in their order.
def inOrder (name : α → String) (xs : List α) : List α := xs.foldr (insertInOrder name) []

example : inOrder id ["b", "a", "B", "ab"] = ["B", "a", "ab", "b"] := by decide +kernel

end SuiteDraft
