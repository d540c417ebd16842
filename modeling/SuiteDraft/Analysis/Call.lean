import SuiteDraft.Tree.Place

/-!
Calls: their arguments, the name by which a function is called, and the functions behind a value.
-/

namespace SuiteDraft

namespace Tree

def callArguments (call : Tree) : List Tree :=
  match call.child? .arguments with
  | some args => if args.kind = .arguments then args.meaningful else []
  | none => []

def plainMember? (t : Tree) : Option (Tree × Tree) :=
  match t.child? .object, t.child? .property with
  | some object, some property =>
    if object.kind = .identifier && property.kind = .propertyIdentifier then
      some (object, property)
    else none
  | _, _ => none

-- The name of a function that is called bare or as a member of a plain name.
def calleeName? (call : Tree) : Option String :=
  match call.child? .function with
  | some callee =>
    match callee.kind with
    | .identifier => some callee.text
    | .memberExpression => (plainMember? callee).map (·.2.text)
    | _ => none
  | none => none

-- Whether a node is a call of the function `name`, bare or as a member of a plain name.
def isCallOf (t : Tree) (name : String) : Bool :=
  t.kind == .callExpression && t.calleeName? == some name

def bareCallee? (call : Tree) : Option String :=
  match call.child? .function with
  | some callee => if callee.kind = .identifier then some callee.text else none
  | none => none

end Tree

namespace Place

def callArguments (call : Place) : List Place :=
  match call.child? .arguments with
  | some args => if args.kind = .arguments then args.meaningful else []
  | none => []

-- The function behind a value: the value itself, or the first argument of a call that wraps it.
def wrappedFunction? (value : Place) : Option Place :=
  if value.kind.isFunctionValue then some value
  else if value.kind = .callExpression then
    match value.callArguments with
    | first :: _ => if first.kind.isFunctionValue then some first else none
    | [] => none
  else none

end Place

end SuiteDraft
