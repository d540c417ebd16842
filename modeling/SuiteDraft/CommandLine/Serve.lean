import SuiteDraft.CommandLine.Screen

/-!
The command that starts the server: it reads the address and says where the server will be.
-/

namespace SuiteDraft.CommandLine.Serve

def form : Form where
  program := "testgen-server"
  summary := "HTTP API for component analysis and test previews."
  switches := [
    { word := "host", operand := .text "HOST"
      purpose := "Host interface to bind the server to (default: 127.0.0.1)." },
    { word := "port", operand := .integer "PORT"
      purpose := "Port to run the server on (default: 8000)." }]

/-- Where a server listens. -/
structure Address where
  host : String := "127.0.0.1"
  port : Int := 8000
  deriving DecidableEq

def Address.ofLine (l : Line) : Address where
  host := l.textOr "host" "127.0.0.1"
  port := l.integerOr "port" 8000

def announcement (a : Address) : Screen :=
  (({} : Screen).say ("🚀 Starting server at http://" ++ a.host ++ ":" ++ toString a.port)).say
    "   Press Ctrl+C to stop."

-- Runs the command with its arguments; if a server is to start, it tells where.
def run (arguments : List String) : Screen × Exit × Option Address :=
  match form.read arguments with
  | .ok l => (announcement (.ofLine l), .code 0, some (.ofLine l))
  | .error stop => ((form.ending stop).1, (form.ending stop).2, none)

end SuiteDraft.CommandLine.Serve
