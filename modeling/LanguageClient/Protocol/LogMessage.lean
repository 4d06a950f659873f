import LanguageClient.Protocol.Token

/-!
# Log messages on the wire

A server may say something for the log, with a number that tells how grave it is.
-/

namespace LanguageClient

/-- What a server says for the log. -/
structure LogMessage where
  gravity : Int32
  message : String
  deriving DecidableEq

namespace LogMessage

def method : String := "window/logMessage"

def toJson (m : LogMessage) : Json :=
  .obj [("message", .str m.message), ("type", Json.integer m.gravity)]

def ofJson? (value : Json) : Option LogMessage := do
  match ← value.slots? ["type", "message"] with
  | [gravity, message] =>
    some { gravity := ← gravity.required Json.int32?, message := ← message.required Json.string? }
  | _ => none

end LogMessage

end LanguageClient
