import SuiteDraft.Analysis.Call
import SuiteDraft.Component.Basic
import SuiteDraft.Tree.Walk

/-!
Where the component is. The default export names it, and every function that is defined under that
name is in its scope; an export that is itself a function needs no name.
-/

namespace SuiteDraft

/-- What a default export says: a name, when it gives one, and the exported value. -/
structure DefaultExport where
  name : Option String := none
  value : Option Place := none

-- The name of the component that is exported, or the one for a component without a name.
def DefaultExport.componentName (e : DefaultExport) : String :=
  let name := e.name.getD ""
  if name.isEmpty then anonymousName else name

/-- A component's name and the functions in whose bodies it lives; without any, the whole file is in
its scope. -/
structure Location where
  name : String
  roots : List Place

namespace Location

def isDefaultExport (statement : Tree) : Bool :=
  statement.kind == .exportStatement && statement.children.any (·.kind == .defaultWord)

def declaredName? (statement : Tree) : Option String :=
  match statement.child? .declaration with
  | some declaration =>
    if declaration.kind.isFunctionDeclaration then (declaration.child? .name).map (·.text) else none
  | none => none

-- The name that an exported value gives: its own when it is a name, the one it declares when it is
-- a function, and that of its first argument when it is a call.
def valueName? (value : Tree) : Option String :=
  if value.kind = .identifier then some value.text
  else if value.kind.isFunctionValue then (value.child? .name).map (·.text)
  else if value.kind = .callExpression then
    match value.callArguments with
    | first :: _ => if first.kind = .identifier then some first.text else none
    | [] => none
  else none

def ofStatement (statement : Place) : DefaultExport :=
  match declaredName? statement.node with
  | some name => { name }
  | none =>
    match statement.child? .value with
    | some value => { name := valueName? value.node, value }
    | none => {}

-- The name that a clause such as `export { Name as default }` exports as the default.
def clauseDefault? (clause : Tree) : Option String :=
  clause.namedChildren.findSome? fun specifier =>
    match specifier.child? .exportedName, specifier.child? .name with
    | some exported, some name => if exported.text = "default" then some name.text else none
    | _, _ => none

-- The name that a statement's clauses export as the default; a statement that names a source
-- exports what is not in this file.
def clauseExport? (statement : Tree) : Option String :=
  if statement.kind = .exportStatement && (statement.child? .source).isNone then
    (statement.namedChildren.filter (·.kind == .exportClause)).findSome? clauseDefault?
  else none

-- The default export of a file with these statements: the first `export default`, or else the first
-- clause that exports a name as the default.
def defaultExport (statements : List Place) : DefaultExport :=
  match statements.find? fun s => isDefaultExport s.node with
  | some statement => ofStatement statement
  | none => { name := statements.findSome? fun s => clauseExport? s.node }

-- The function that a node defines under a name: a declaration of that name, or the function behind
-- the value of a variable of that name.
def definition? (name : String) (site : Place) : Option Place :=
  if site.kind.isFunctionDeclaration then
    if site.node.childText .name = name then some site else none
  else if site.kind = .variableDeclarator then
    match site.node.child? .name with
    | some binding =>
      if binding.kind = .identifier && binding.text = name then
        (site.child? .value).bind Place.wrappedFunction?
      else none
    | none => none
  else none

-- The functions that are defined under a name at the nodes on a stack or below them; what lies
-- within a definition is not searched.
def collectDefinitions (name : String) : List Place → List Place
  | [] => []
  | p :: stack =>
    match definition? name p with
    | some fn => fn :: collectDefinitions name stack
    | none => collectDefinitions name (p.namedChildren ++ stack)
termination_by stack => Place.load stack
decreasing_by
  · exact Nat.lt_add_of_pos_left (by rw [Tree.size_eq]; exact Nat.succ_pos _)
  · exact Place.load_namedChildren_append p stack

/-- The functions that are defined under a name, in the order of the source; no one lies within
another. -/
def definitions (name : String) (root : Place) : List Place := collectDefinitions name [root]

-- The scope of a default export: the functions defined under its name, or else the exported
-- function itself.
def scope (root : Place) (e : DefaultExport) : List Place :=
  let named := match e.name with
    | some name => definitions name root
    | none => []
  if named.isEmpty then (e.value.bind Place.wrappedFunction?).toList else named

/-- The nodes below which the facts of a component are looked for: the roots of its location, or the
root of the file when there are none. -/
def starts (location : Location) (root : Place) : List Place :=
  if location.roots.isEmpty then [root] else location.roots

/-- Locates the component of a file. -/
def ofRoot (root : Place) : Location :=
  let e := defaultExport root.namedChildren
  { name := e.componentName, roots := scope root e }

end Location

end SuiteDraft
