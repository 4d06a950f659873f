import LanguageClient.Json.Decoder

/-!
# Progress on the wire

A server tells of long work by notifications that name a token. Each says as much as it likes: a
title, a message, a percentage, that the work is done.
-/

namespace LanguageClient

/-- What a server says of the work with the given token. -/
structure ProgressParams where
  id : String
  title : Option String
  message : Option String
  percentage : Option Binary64
  done : Option Bool
  deriving DecidableEq, Repr

namespace ProgressParams

def method : String := "window/progress"

def isDone (p : ProgressParams) : Bool := p.done.getD false

/-- Whether there is anything new to show. -/
def hasUpdate (p : ProgressParams) : Bool := p.percentage.isSome || p.message.isSome

def toJson (p : ProgressParams) : Json :=
  .obj (Json.field? "done" (p.done.map .bool) ++ [("id", .str p.id)] ++
    Json.field? "message" (p.message.map .str) ++
    Json.field? "percentage" (p.percentage.map fun x => .num (.float x)) ++
    Json.field? "title" (p.title.map .str))

def ofJson? (value : Json) : Option ProgressParams := do
  match ← value.slots? ["id", "title", "message", "percentage", "done"] with
  | [id, title, message, percentage, done] =>
    let text (slot : Json.Slot) : Option (Option String) :=
      slot.orElse none (Json.Slot.optional Json.string?)
    some {
      id := ← id.required Json.string?
      title := ← text title
      message := ← text message
      percentage := ← percentage.orElse none (Json.Slot.optional Json.binary64?)
      done := ← done.orElse none (Json.Slot.optional Json.bool?) }
  | _ => none

end ProgressParams

end LanguageClient
