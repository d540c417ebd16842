import SuiteDraft.CommandLine.Form
import SuiteDraft.Keyed
import SuiteDraft.Text.Integer
import SuiteDraft.Text.Quoted

/-!
Reading a command line by its form. First every argument is sorted by itself: a word, a switch, the
divider after which all is words, or something that looks like a switch and is none. Then they are
taken in order. A switch may be cut short as long as it is the only one of its beginning, and
switches of one letter may stand together.
-/

namespace SuiteDraft.CommandLine

/-- How a command line misses its form. -/
inductive Misuse where
  /-- The beginning of several switches. -/
  | ambiguous (argument : String) (spellings : List String)
  /-- A value for a switch that takes none. -/
  | needlessValue (switch : Switch) (value : List Char)
  /-- No value for a switch that takes one. -/
  | missingValue (switch : Switch)
  /-- A value that is no integer. -/
  | noInteger (switch : Switch) (value : String)
  /-- The word that must be given is not. -/
  | missingSubject (name : String)
  /-- Arguments that are left over. -/
  | leftOver (arguments : List String)
  deriving DecidableEq

def Misuse.about (s : Switch) : String := "argument " ++ "/".intercalate s.spellings ++ ": "

def Misuse.message : Misuse → String
  | ambiguous argument spellings =>
    "ambiguous option: " ++ argument ++ " could match " ++ ", ".intercalate spellings
  | needlessValue s value =>
    about s ++ "ignored explicit argument " ++ Text.quoted (String.ofList value)
  | missingValue s => about s ++ "expected one argument"
  | noInteger s value => about s ++ "invalid int value: " ++ Text.quoted value
  | missingSubject name => "the following arguments are required: " ++ name
  | leftOver arguments => "unrecognized arguments: " ++ " ".intercalate arguments

/-- Why a command line is not read to its end. -/
inductive Stop where
  /-- Help was asked for. -/
  | help
  | misuse (misuse : Misuse)
  deriving DecidableEq

/-! ### Single arguments -/

/-- An argument by itself. A switch may come with a value after an equals sign, or with more letters
behind its own. -/
inductive Token where
  | word (text : String)
  | divider
  | switch (switch : Switch)
  | assigned (switch : Switch) (value : List Char)
  | joined (switch : Switch) (more : List Char)
  | stray (text : String)
  deriving DecidableEq

def Form.spelled? (f : Form) (text : List Char) : Option Switch :=
  match text with
  | '-' :: '-' :: word => f.all.find? fun s => s.word.toList == word
  | ['-', c] => f.all.find? fun s => s.letter == some c
  | _ => none

-- A text before its first equals sign, and after it if there is one.
def cutAtEquals (text : List Char) : List Char × Option (List Char) :=
  let before := text.takeWhile (· != '=')
  match text.drop before.length with
  | [] => (before, none)
  | _ :: after => (before, some after)

def Token.ofSwitch (s : Switch) : Option (List Char) → Token
  | none => switch s
  | some value => assigned s value

-- What an argument that is no spelling may stand for: a word cut short, or a letter with more
-- behind it.
def Form.guesses (f : Form) (text : List Char) : List (String × Token) :=
  match text with
  | '-' :: '-' :: rest =>
    let (word, value) := cutAtEquals rest
    (f.all.filter fun s => word.isPrefixOf s.word.toList).map fun s =>
      ("--" ++ s.word, .ofSwitch s value)
  | '-' :: c :: rest =>
    (f.all.filter fun s => s.letter == some c).map fun s =>
      (String.ofList ['-', c], .joined s rest)
  | _ => []

def areDigits (text : List Char) : Bool := text.all fun c => (Text.decimalValue? c).isSome

-- A number that may stand as a word though it starts with a dash: digits, with or without a point
-- before the last of them.
def isNegative (text : List Char) : Bool :=
  let text := if text.getLast? == some '\n' then text.dropLast else text
  match text with
  | '-' :: rest =>
    let whole := rest.takeWhile (· != '.')
    match rest.drop whole.length with
    | [] => !whole.isEmpty && areDigits whole
    | _ :: places => areDigits whole && !places.isEmpty && areDigits places
  | _ => false

def Form.dashed (f : Form) (arg : String) : Except Misuse Token :=
  let text := arg.toList
  let (before, value) := cutAtEquals text
  match f.spelled? text, f.spelled? before with
  | some s, _ => .ok (.switch s)
  | none, some s => .ok (.ofSwitch s value)
  | none, none =>
    match f.guesses text with
    | [(_, token)] => .ok token
    | [] => .ok (if isNegative text || text.contains ' ' then .word arg else .stray arg)
    | several => .error (.ambiguous arg (several.map (·.1)))

def Form.tokens (f : Form) : List String → Except Misuse (List Token)
  | [] => .ok []
  | arg :: rest => do
    if arg == "--" then return .divider :: rest.map Token.word
    else if arg.toList.head? == some '-' && arg != "-" then
      let token ← f.dashed arg
      return token :: (← f.tokens rest)
    else return .word arg :: (← f.tokens rest)

/-! ### The whole line -/

/-- What a switch was given. -/
inductive Value where
  | present
  | text (text : String)
  | integer (value : Int)
  deriving DecidableEq

/-- A command line as far as it is read: its subject, its switches by their words, and what is left
over. -/
structure Line where
  subject? : Option String := none
  values : Keyed Value := []
  rest : List String := []

def Line.has (l : Line) (word : String) : Bool := (l.values.get? word).isSome

def Line.integerOr (l : Line) (word : String) (other : Int) : Int :=
  match l.values.get? word with
  | some (.integer n) => n
  | _ => other

def Line.textOr (l : Line) (word other : String) : String :=
  match l.values.get? word with
  | some (.text t) => t
  | _ => other

def Line.takeFlag (l : Line) (s : Switch) : Except Stop Line :=
  if s = Form.help then .error .help
  else .ok { l with values := Keyed.put l.values s.word .present }

def Line.takeValue (l : Line) (s : Switch) (value : String) : Except Stop Line :=
  match s.operand with
  | .integer _ =>
    match Text.readInteger? 10 value.toList with
    | some n => .ok { l with values := Keyed.put l.values s.word (.integer n) }
    | none => .error (.misuse (.noInteger s value))
  | _ => .ok { l with values := Keyed.put l.values s.word (.text value) }

/-- Letters that stand together: those that take nothing; then, perhaps, a switch that takes a
value, with what stands behind it; or what is no letter of a switch. -/
structure Letters where
  flags : List Switch
  last? : Option (Switch × Option (List Char)) := none
  stray? : Option String := none

-- The letters behind that of the switch `s`, which takes nothing.
def Form.letters (f : Form) (s : Switch) : List Char → Except Misuse Letters
  | [] => .ok ⟨[s], none, none⟩
  | c :: rest =>
    if c = '-' then .error (.needlessValue s (c :: rest))
    else
      match f.all.find? fun t => t.letter == some c with
      | none => .ok ⟨[s], none, some (String.ofList ('-' :: c :: rest))⟩
      | some t =>
        match t.operand, rest with
        | .nothing, '=' :: value => .error (.needlessValue t value)
        | .nothing, rest => do
          let more ← f.letters t rest
          return { more with flags := s :: more.flags }
        | _, [] => .ok ⟨[s], some (t, none), none⟩
        | _, '=' :: value => .ok ⟨[s], some (t, some value), none⟩
        | _, value => .ok ⟨[s], some (t, some value), none⟩

-- Takes letters that stand together; what comes of it may be a switch that still waits for its
-- value.
def Line.takeLetters (l : Line) (ls : Letters) : Except Stop (Line × Option Switch) := do
  let l ← ls.flags.foldlM Line.takeFlag l
  let l := { l with rest := l.rest ++ ls.stray?.toList }
  match ls.last? with
  | none => return (l, none)
  | some (t, none) => return (l, some t)
  | some (t, some value) => return (← l.takeValue t (String.ofList value), none)

-- Takes an argument that is a switch, if it is one; what comes of it may be a switch that still
-- waits for its value.
def Form.takeSwitch (f : Form) (l : Line) : Token → Except Stop (Line × Option Switch)
  | .switch s => do
    if s.operand = .nothing then return (← l.takeFlag s, none) else return (l, some s)
  | .assigned s value => do
    if s.operand = .nothing then throw (.misuse (.needlessValue s value))
    else return (← l.takeValue s (String.ofList value), none)
  | .joined s more => do
    if s.operand = .nothing then l.takeLetters (← (f.letters s more).mapError .misuse)
    else return (← l.takeValue s (String.ofList more), none)
  | _ => return (l, none)

def Form.lacks (f : Form) (l : Line) : Bool := f.subject?.isSome && l.subject?.isNone

/-- Takes arguments in order. The first word that is no switch's value is the subject, and a divider
beside it goes with it. -/
def Form.take (f : Form) (l : Line) : List Token → Except Stop Line
  | [] => .ok l
  | .stray text :: rest => f.take { l with rest := l.rest ++ [text] } rest
  | .divider :: .word text :: rest =>
    if f.lacks l then f.take { l with subject? := some text } rest
    else f.take { l with rest := l.rest ++ ["--", text] } rest
  | .divider :: rest => f.take { l with rest := l.rest ++ ["--"] } rest
  | .word text :: .divider :: rest =>
    if f.lacks l then f.take { l with subject? := some text } rest
    else f.take { l with rest := l.rest ++ [text, "--"] } rest
  | .word text :: rest =>
    if f.lacks l then f.take { l with subject? := some text } rest
    else f.take { l with rest := l.rest ++ [text] } rest
  | token :: rest => do
    match ← f.takeSwitch l token, rest with
    | (l, none), rest => f.take l rest
    | (l, some t), .word value :: rest => f.take (← l.takeValue t value) rest
    | (_, some t), _ => .error (.misuse (.missingValue t))

def Form.read (f : Form) (arguments : List String) : Except Stop Line := do
  let tokens ← (f.tokens arguments).mapError .misuse
  let l ← f.take {} tokens
  match f.subject? with
  | some (name, _) =>
    if l.subject?.isNone then throw (.misuse (.missingSubject name))
  | none => pure ()
  if l.rest.isEmpty then return l else throw (.misuse (.leftOver l.rest))

end SuiteDraft.CommandLine
