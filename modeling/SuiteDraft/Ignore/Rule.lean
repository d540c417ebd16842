import SuiteDraft.Ignore.Pattern
import SuiteDraft.Path.Basic
import SuiteDraft.Text.Blank

/-!
Reading the rules of an ignore file, and the verdict of many rules on a path: the last rule that the
path follows decides.
-/

namespace SuiteDraft.Ignore

/-- Why a line is no rule and cannot be passed over either. -/
inductive RuleError where
  /-- Nothing is left of it, or a backslash has nothing to stand in front of. -/
  | malformed
  /-- A range in a character class runs backwards. -/
  | backwardRange
  deriving DecidableEq

/-- A rule: the paths that it speaks of, and whether it takes them back. -/
structure Rule where
  negated : Bool
  pattern : Pattern
  deriving DecidableEq

/-! ### Names -/

def classItems : List Char → List ClassItem
  | a :: '-' :: b :: rest => ⟨a, b⟩ :: classItems rest
  | a :: rest => ⟨a, a⟩ :: classItems rest
  | [] => []

-- The rest of a character class up to its end, and what follows; a bracket in the first place does
-- not end it.
def classBody : List Char → Option (List Char × List Char)
  | [] => none
  | c :: rest =>
    let inner := rest.takeWhile (· != ']')
    match rest.dropWhile (· != ']') with
    | [] => none
    | _ :: after => some (c :: inner, after)

def classTest (s : List Char) : Option (CharTest × List Char) :=
  match s with
  | '!' :: rest | '^' :: rest =>
    (classBody rest).map fun r => (.oneOf true (classItems r.1), r.2)
  | _ => (classBody s).map fun r => (.oneOf false (classItems r.1), r.2)

-- The atoms of a name, at most `n` of them; nothing when a character class has no end.
def nameAtoms : Nat → List Char → Except RuleError (Option (List Atom))
  | 0, _ => .ok (some [])
  | _ + 1, [] => .ok (some [])
  | _ + 1, ['\\'] => .error .malformed
  | n + 1, '\\' :: c :: rest => return (← nameAtoms n rest).map (.one (.exactly c) :: ·)
  | n + 1, '*' :: rest => return (← nameAtoms n rest).map (.run :: ·)
  | n + 1, '?' :: rest => return (← nameAtoms n rest).map (.one .withinName :: ·)
  | n + 1, '[' :: rest =>
    match classTest rest with
    | none => .ok none
    | some (test, after) => return (← nameAtoms n after).map (.one test :: ·)
  | n + 1, c :: rest => return (← nameAtoms n rest).map (.one (.exactly c) :: ·)

/-! ### Segments -/

def deep : List Char := ['*', '*']

def collapse : List (List Char) → List (List Char)
  | [] => []
  | s :: rest =>
    if s == deep && (collapse rest).head? == some deep then collapse rest else s :: collapse rest

/-- The segments between the slashes of a rule, in a normal form: a leading slash is dropped, a
single name may stand at any depth, and a slash at the end means all that is below. -/
def segments (body : List Char) : List (List Char) :=
  let raw := splitAt '/' body
  let tied := match raw with
    | [] :: rest => rest
    | [name] => [deep, name]
    | [name, []] => [deep, name, []]
    | _ => raw
  collapse (if tied.getLast? == some [] then tied.dropLast ++ [deep] else tied)

def slash (afterName : Bool) : List Atom := if afterName then [.one (.exactly '/')] else []

-- The atoms of segments; `first` before any segment, `afterName` when a slash must come.
def segmentAtoms (first afterName : Bool) :
    List (List Char) → Except RuleError (Option (List Atom))
  | [] => .ok (some [])
  | s :: rest => do
    if s == deep then
      let here := if first then [.lead] else if rest.isEmpty then slash true else [.gap]
      return (← segmentAtoms false (!first) rest).map (here ++ ·)
    else
      let name ← if s == ['*'] then .ok (some [.one .withinName, .run])
        else nameAtoms s.length s
      match name with
      | none => return none
      | some name =>
        let here := slash afterName ++ name ++ if rest.isEmpty then [Atom.close] else []
        return (← segmentAtoms false true rest).map (here ++ ·)

def Atom.isBackward : Atom → Bool
  | .one (.oneOf _ items) => items.any fun i => i.last < i.first
  | _ => false

def patternOf (body : List Char) : Except RuleError (Option Pattern) :=
  let nested := body.getLast? == some '/'
  match segments body with
  | [] => .error .malformed
  | parts =>
    if parts == [deep] then .ok (some (if nested then .nested else .everything))
    else if parts == [deep, ['*']] then .ok (some .everything)
    else if parts == [deep, ['*'], deep] then .ok (some .nested)
    else
      match segmentAtoms true false parts with
      | .error e => .error e
      | .ok none => .ok none
      | .ok (some as) =>
        if as.any Atom.isBackward then .error .backwardRange else .ok (some (.atoms as))

/-! ### Rules -/

-- The line without blanks at its end, unless the last of them is escaped.
def trimLine (line : List Char) : List Char :=
  if [' ', '\\'].isPrefixOf line.reverse then line else Text.trimRight line

def Rule.ofLine? (line : List Char) : Except RuleError (Option Rule) :=
  let line := trimLine line
  match line with
  | [] | '#' :: _ | ['/'] => .ok none
  | '!' :: body => return (← patternOf body).map (⟨true, ·⟩)
  | body => return (← patternOf body).map (⟨false, ·⟩)

def rulesOf (lines : List (List Char)) : Except RuleError (List Rule) := do
  return (← lines.mapM Rule.ofLine?).filterMap id

-- The path as rules see it: without the slash or the dot and slash that it begins with.
def visible : List Char → List Char
  | '/' :: rest => rest
  | '.' :: '/' :: rest => rest
  | path => path

/-- The verdict of rules on a path: whether the last one that it follows ignores it. -/
def isIgnored (rules : List Rule) (path : List Char) : Bool :=
  match rules.reverse.find? (·.pattern.holds (visible path)) with
  | some rule => !rule.negated
  | none => false

end SuiteDraft.Ignore
