/-!
Records of what happened along the way: how much each matters, which part of the program speaks, and
what it says.
-/

namespace SuiteDraft

/-- How much a record matters. -/
inductive Severity where
  | debug
  | info
  | warning
  | error
  deriving DecidableEq

def Severity.rank : Severity → Nat
  | debug => 10
  | info => 20
  | warning => 30
  | error => 40

def Severity.word : Severity → String
  | debug => "DEBUG"
  | info => "INFO"
  | warning => "WARNING"
  | error => "ERROR"

/-- The parts of the program that speak. -/
inductive Channel where
  | analysis
  | batch
  | suite
  deriving DecidableEq

def Channel.name : Channel → String
  | analysis => "testgen.services.component_analysis"
  | batch => "testgen.services.batch"
  | suite => "testgen.services.test_generator"

/-- A record. -/
structure LogRecord where
  severity : Severity
  channel : Channel
  text : String
  deriving DecidableEq

def LogRecord.brief (r : LogRecord) : String := r.severity.word ++ ": " ++ r.text

def LogRecord.line (r : LogRecord) : String :=
  r.severity.word ++ " " ++ r.channel.name ++ ": " ++ r.text

def recordsFrom (least : Severity) (log : List LogRecord) : List LogRecord :=
  log.filter fun r => least.rank ≤ r.severity.rank

end SuiteDraft
