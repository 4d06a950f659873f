import LanguageClient.Config
import LanguageClient.Telemetry.Filter

/-!
# Telemetry

The log of the process. It is set up once: the first configuration whose filter can be read counts,
and every later one changes nothing and is fine.
-/

namespace LanguageClient

/-- How the process writes its log, once that is set up. -/
structure Telemetry where
  sink : Option (LogFilter × LogFormat)
  deriving DecidableEq, Repr

/-- A line of the log without its time. -/
inductive LogLine where
  /-- All parts of the event, side by side. -/
  | record (event : LogEvent)
  | text (line : String)
  deriving DecidableEq, Repr

namespace Telemetry

/-- No log. -/
def none : Telemetry := ⟨.none⟩

/-- Sets the log up if that was not done yet; the answer is whether there is one now. -/
def setUp (telemetry : Telemetry) (logging : Logging) : Telemetry × Bool :=
  match telemetry.sink with
  | some _ => (telemetry, true)
  | .none =>
    match LogFilter.parse? logging.filter with
    | some filter => (⟨some (filter, logging.format)⟩, true)
    | .none => (telemetry, false)

/-- The event on one line: its level in five columns, the target, the message and the fields. -/
def compactLine (event : LogEvent) : String :=
  let name := event.level.name
  let padding := String.ofList (List.replicate (5 - name.length) ' ')
  let fields := event.fields.map fun field => " " ++ field.1 ++ "=" ++ field.2
  padding ++ name ++ " " ++ event.target ++ ": " ++ event.message ++ String.join fields

/-- The line that an event leaves, if any. -/
def line? (telemetry : Telemetry) (event : LogEvent) : Option LogLine :=
  match telemetry.sink with
  | .none => .none
  | some (filter, format) =>
    if filter.allows event then
      match format with
      | .json => some (.record event)
      | .compact => some (.text (compactLine event))
    else .none

end Telemetry

end LanguageClient
