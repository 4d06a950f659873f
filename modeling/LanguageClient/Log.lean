/-!
# Log events

What the client says of its own doings: an event has a level, a target (the part of the client that
speaks), a message and named fields.
-/

namespace LanguageClient

/-- How grave an event is; the first is the gravest. -/
inductive LogLevel where
  | error
  | warn
  | info
  | debug
  | trace
  deriving DecidableEq, Repr

namespace LogLevel

def name : LogLevel → String
  | .error => "ERROR"
  | .warn => "WARN"
  | .info => "INFO"
  | .debug => "DEBUG"
  | .trace => "TRACE"

/-- How much a level adds to the log: one for the gravest. -/
def rank : LogLevel → Nat
  | .error => 1
  | .warn => 2
  | .info => 3
  | .debug => 4
  | .trace => 5

end LogLevel

structure LogEvent where
  level : LogLevel
  target : String
  message : String
  fields : List (String × String)
  deriving DecidableEq, Repr

/-- The parts of the client that speak. -/
inductive LogPart where
  | client
  | connection
  | diagnostics
  | progress
  | server
  | session
  deriving DecidableEq, Repr

namespace LogPart

def name : LogPart → String
  | .client => "client"
  | .connection => "connection"
  | .diagnostics => "diagnostics"
  | .progress => "progress"
  | .server => "server"
  | .session => "session"

/-- What stands in front of the name of a part in a target. -/
def family : String := "weft_lsp_client::"

def target (part : LogPart) : String := family ++ part.name

end LogPart

/-- An event of a part of the client. -/
def LogPart.event (part : LogPart) (level : LogLevel) (message : String)
    (fields : List (String × String)) : LogEvent :=
  ⟨level, part.target, message, fields⟩

end LanguageClient
