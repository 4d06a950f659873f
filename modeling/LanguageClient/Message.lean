import LanguageClient.Json.Decoder
import LanguageClient.Json.Parser
import LanguageClient.Json.Printer

/-!
# Messages

The messages between client and server: requests, notifications and responses. `Message.ofJson?`
tells them apart by the presence of a method and of an id that is not `null`; a `null` for an
optional part counts as absent. `Message.toJson` writes the parts in a fixed order and leaves out
those that are absent.
-/

namespace LanguageClient

/-- The name of a request, by which its response is known. -/
inductive RequestId where
  | number (value : Int64)
  | text (value : String)
  deriving DecidableEq, Repr

/-- The id as it is shown. -/
def RequestId.display : RequestId → String
  | .number n => toString n.toInt
  | .text s => s

def RequestId.toJson : RequestId → Json
  | .number n => Json.int n.toInt
  | .text s => .str s

def RequestId.ofJson? (value : Json) : Option RequestId :=
  (value.int64?.map .number).or (value.string?.map .text)

/-- Why a request failed, for the one who asked. -/
structure ResponseError where
  code : Int64
  message : String
  data : Option Json
  deriving DecidableEq, Repr

namespace ResponseError

/-- The code of a request whose method has no handler. -/
def methodNotFound : Int64 := -32601

/-- The code of a request whose params do not decode. -/
def invalidParams : Int64 := -32602

/-- The code of any other failure. -/
def internalError : Int64 := -32603

def toJson (error : ResponseError) : Json :=
  .obj ([("code", Json.int error.code.toInt), ("message", .str error.message)] ++
    Json.field? "data" error.data)

def ofJson? (value : Json) : Option ResponseError := do
  match ← value.slots? ["code", "message", "data"] with
  | [code, message, data] =>
    some {
      code := ← code.required Json.int64?
      message := ← message.required Json.string?
      data := ← data.orElse none (Json.Slot.optional Json.any?) }
  | _ => none

end ResponseError

/-- A call of a method that wants a response. -/
structure Request where
  jsonrpc : String
  id : RequestId
  method : String
  params : Option Json
  deriving DecidableEq, Repr

/-- A call of a method that wants no response. -/
structure Notification where
  jsonrpc : String
  method : String
  params : Option Json
  deriving DecidableEq, Repr

/-- The answer to a request. -/
structure Response where
  jsonrpc : String
  id : Option RequestId
  result : Option Json
  error : Option ResponseError
  deriving DecidableEq, Repr

/-- What one end sends to the other. -/
inductive Message where
  | request (request : Request)
  | response (response : Response)
  | notification (notification : Notification)
  deriving DecidableEq, Repr

/-- The version that this client writes. -/
def protocolVersion : String := "2.0"

/-- A request of this client. -/
def Request.make (id : RequestId) (method : String) (params : Option Json) : Request :=
  ⟨protocolVersion, id, method, params⟩

/-- A notification of this client. -/
def Notification.make (method : String) (params : Option Json) : Notification :=
  ⟨protocolVersion, method, params⟩

def Response.success (id : RequestId) (result : Json) : Response :=
  ⟨protocolVersion, some id, some result, none⟩

def Response.failure (id : RequestId) (error : ResponseError) : Response :=
  ⟨protocolVersion, some id, none, some error⟩

def Request.ofJson? (value : Json) : Option Request := do
  match ← value.slots? ["jsonrpc", "id", "method", "params"] with
  | [jsonrpc, id, method, params] =>
    some {
      jsonrpc := ← jsonrpc.required Json.string?
      id := ← id.required RequestId.ofJson?
      method := ← method.required Json.string?
      params := ← params.orElse none (Json.Slot.optional Json.any?) }
  | _ => none

def Notification.ofJson? (value : Json) : Option Notification := do
  match ← value.slots? ["jsonrpc", "method", "params"] with
  | [jsonrpc, method, params] =>
    some {
      jsonrpc := ← jsonrpc.required Json.string?
      method := ← method.required Json.string?
      params := ← params.orElse none (Json.Slot.optional Json.any?) }
  | _ => none

/-- The response that an object or an array is. -/
def Response.ofJson? (value : Json) : Option Response := do
  match ← value.slots? ["jsonrpc", "id", "result", "error"] with
  | [jsonrpc, id, result, error] =>
    some {
      jsonrpc := ← jsonrpc.required Json.string?
      id := ← id.optional RequestId.ofJson?
      result := ← result.orElse none (Json.Slot.optional Json.any?)
      error := ← error.orElse none (Json.Slot.optional ResponseError.ofJson?) }
  | _ => none

/-- Why bytes or a value are no message. -/
inductive DecodeError where
  /-- The bytes are no JSON text. -/
  | malformed
  /-- The value has not the shape of a message. -/
  | mismatched
  deriving DecidableEq, Repr

namespace Message

def ofJson? (value : Json) : Option Message :=
  if (value.get? "method").isSome then
    if ((value.get? "id").getD .null).isNull then (Notification.ofJson? value).map .notification
    else (Request.ofJson? value).map .request
  else (Response.ofJson? value).map .response

/-- The message as a value, its parts in the order in which they are written. -/
def toJson : Message → Json
  | .request r =>
    .obj ([("jsonrpc", .str r.jsonrpc), ("id", r.id.toJson), ("method", .str r.method)] ++
      Json.field? "params" r.params)
  | .response r =>
    .obj ([("jsonrpc", .str r.jsonrpc), ("id", (r.id.map RequestId.toJson).getD .null)] ++
      Json.field? "result" r.result ++ Json.field? "error" (r.error.map ResponseError.toJson))
  | .notification n =>
    .obj ([("jsonrpc", .str n.jsonrpc), ("method", .str n.method)] ++
      Json.field? "params" n.params)

/-- The message that a text says. -/
def decode (text : String) : Except DecodeError Message :=
  match Json.parse? text with
  | none => .error .malformed
  | some value =>
    match ofJson? value with
    | none => .error .mismatched
    | some message => .ok message

/-- The message that bytes say. -/
def decodeBytes (bytes : ByteArray) : Except DecodeError Message :=
  match String.fromUTF8? bytes with
  | none => .error .malformed
  | some text => decode text

def encode (message : Message) : String := message.toJson.text

def method? : Message → Option String
  | .request r => some r.method
  | .notification n => some n.method
  | .response _ => none

def id? : Message → Option RequestId
  | .request r => some r.id
  | .notification _ => none
  | .response r => r.id

end Message

end LanguageClient
