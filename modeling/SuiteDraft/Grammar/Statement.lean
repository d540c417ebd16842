import SuiteDraft.Grammar.Portal

/-!
Statements. The word that a statement begins with tells which one it is; without such a word it is
an expression.
-/

namespace SuiteDraft.Grammar

open SuiteDraft.Grammar.Parser

def expressionStatement (r : Reader) : Parser Tree := node (other "expression_statement") do
  let e ← expressions r .outside
  ending .value
  return [e]

def block.read (r : Reader) : Parser Tree :=
  node (other "statement_block") (within "\x7b" "\x7d" (many r.statement))

def condition (r : Reader) : Parser Tree := field (.other "condition") (parenthesized r)

def body (r : Reader) : Parser Tree := field .body r.statement

def worded (kind w : String) (p : Parser (List Tree)) : Parser Tree :=
  node (other kind) (keyword w *> p)

def ifStatement (r : Reader) : Parser Tree := worded "if_statement" "if" do
  let c ← condition r
  let yes ← field (.other "consequence") r.statement
  let no ← whenWord "else" (field (.other "alternative")
    (worded "else_clause" "else" (one r.statement)))
  return c :: yes :: no

def caseBody (r : Reader) : Parser (List Tree) := many do
  guard (!(["case", "default"].contains (← peekWord)))
  body r

def switchStatement (r : Reader) : Parser Tree := worded "switch_statement" "switch" do
  let value ← field .value (parenthesized r)
  let cases ← field .body <| node (other "switch_body") <| within "\x7b" "\x7d" <| many <|
    worded "switch_case" "case" (do
      let value ← field .value (expressions r .inside)
      symbol ":"
      return value :: (← caseBody r))
    <|> worded "switch_default" "default" (symbol ":" *> caseBody r)
  return [value, cases]

def itemsHead (r : Reader) : Parser (List Tree) := within "(" ")" do
  let target ← declared
    <|> field .left (destructuring r <|> assignable r <|> parenthesized r)
  keyword "in" <|> keyword "of"
  return [target, ← field (.other "right") (expressions r .inside)]
where
  declared : Parser Tree := do
    keyword "var" <|> keyword "let" <|> keyword "const"
    let t ← field .left (destructuring r <|> nameNode .identifier)
    let w ← peekWord
    guard (w == "in" || w == "of")
    return t

def stepsHead (r : Reader) : Parser (List Tree) := within "(" ")" do
  let start ← one (variableDeclaration r) <|> clause
  let condition ← clause
  let step ← orNone (one (field (.other "increment") (expressions r .inside)))
  return start ++ condition ++ step
where
  clause : Parser (List Tree) := orNone (one (expressions r .inside)) <* symbol ";"

def forStatement (r : Reader) : Parser Tree := do
  let start ← next
  keyword "for"
  let (kind, head) ←
    (do
      let _ ← optional (keyword "await")
      return ("for_in_statement", ← itemsHead r))
    <|> do return ("for_statement", ← stepsHead r)
  close (other kind) start (head ++ [← body r])

def doStatement (r : Reader) : Parser Tree := worded "do_statement" "do" do
  let body ← body r
  keyword "while"
  let c ← condition r
  let _ ← optional (symbol ";")
  return [body, c]

def tryStatement (r : Reader) : Parser Tree := worded "try_statement" "try" do
  let tried ← field .body r.block
  let caught ← whenWord "catch" <| field (.other "handler") <| worded "catch_clause" "catch" do
    let target ← orNone <| within "(" ")" do
      let t ← field .parameter (destructuring r <|> nameNode .identifier)
      return t :: (← orNone (one (typeAfterColon r .inside)))
    return target ++ [← field .body r.block]
  let after ← whenWord "finally" <| field (.other "finalizer") <|
    worded "finally_clause" "finally" (one (field .body r.block))
  return tried :: caught ++ after

def jump (kind w : String) : Parser Tree := worded kind w do
  let label ← orNone <| one do
    Parser.goesOn .other
    field (.other "label") (nameNode (other "statement_identifier"))
  ending .other
  return label

def returnStatement (r : Reader) : Parser Tree := worded "return_statement" "return" do
  let value ← orNone (one (Parser.goesOn .other *> expressions r .outside))
  ending (if value.isEmpty then .other else .value)
  return value

def throwStatement (r : Reader) : Parser Tree := worded "throw_statement" "throw" do
  let value ← expressions r .outside
  ending .value
  return [value]

def labelledStatement (r : Reader) : Parser Tree := node (other "labeled_statement") do
  let label ← field (.other "label") (nameNode (other "statement_identifier"))
  symbol ":"
  return [label, ← body r]

def wordStatement (r : Reader) (w : String) : Parser Tree :=
  match w with
  | "if" => ifStatement r
  | "for" => forStatement r
  | "while" => worded "while_statement" "while" (do return [← condition r, ← body r])
  | "with" => worded "with_statement" "with"
      (do return [← field .object (parenthesized r), ← body r])
  | "do" => doStatement r
  | "switch" => switchStatement r
  | "try" => tryStatement r
  | "return" => returnStatement r
  | "throw" => throwStatement r
  | "break" => jump "break_statement" "break"
  | "continue" => jump "continue_statement" "continue"
  | "debugger" => worded "debugger_statement" "debugger" (ending .other *> pure [])
  | "var" | "const" | "interface" | "enum" | "abstract" => plainDeclaration r w
  | "function" => named functionHead
  | "class" => named (keyword "class" *> className)
  | "import" => importStatement r <|> importAlias <|> expressionStatement r
  | "export" => exportStatement r <|> expressionStatement r
  | "async" => named functionHead
  | "declare" => ambientDeclaration r <|> plain
  | _ => plainDeclaration r w <|> plain
where
  plain : Parser Tree := labelledStatement r <|> expressionStatement r
  functionHead : Parser Tree := do
    let _ ← optional (asyncMark .outside)
    keyword "function"
    let _ ← optional (symbol "*")
    nameNode .identifier
  named (head : Parser Tree) : Parser Tree := do
    if ← sees head then plainDeclaration r w else plain

def statement.read (r : Reader) : Parser Tree := do
  skipMarks
  match ← peek with
  | none => failure
  | some '\x7b' => r.block <|> expressionStatement r
  | some ';' => node (other "empty_statement") (symbol ";" *> pure [])
  | some '@' => exportStatement r <|> classDeclaration r <|> expressionStatement r
  | some _ => wordStatement r (← peekWord)

end SuiteDraft.Grammar
