import LanguageClient.Message
import LanguageClient.Url

/-!
# Failures

Every failure is a cause; `ClientError.message` has the wording. A failure that is told to the server
becomes a `ResponseError` whose code says whether the method has no handler, the params did not
decode, or anything else went wrong.
-/

namespace LanguageClient

/-- Why a URL could not be taken from the host to the server or back. -/
inductive ConversionError where
  /-- The text is no URL. -/
  | invalidUri (value : String) (source : UrlError)
  /-- The URL is no URI reference. -/
  | noReference (value : String)
  /-- The other side has no name for the URL. -/
  | unmappable (value : String)
  deriving DecidableEq, Repr

def ConversionError.message : ConversionError → String
  | .invalidUri value source => s!"invalid URI '{value}': " ++ source.message
  | .noReference value => s!"URI '{value}' is not a valid protocol URI"
  | .unmappable value => s!"URI '{value}' cannot be expressed in the target namespace"

/-- Why a message could not be sent. -/
inductive TransportError where
  /-- There is no connection; a deeper cause may be known. -/
  | connect (message : String) (source : Option String)
  /-- The other end takes no more messages. -/
  | send (method : String)
  deriving DecidableEq, Repr

def TransportError.message : TransportError → String
  | .connect message _ => s!"failed to connect to language server: {message}"
  | .send method => s!"failed to send '{method}': transport is closed"

/-- What the host says of a failure of its own. -/
structure HostError where
  message : String
  source : Option String
  deriving DecidableEq, Repr

/-- Why the client could not do what was asked. -/
inductive ClientError where
  | transport (error : TransportError)
  | conversion (error : ConversionError)
  | connectionClosed
  /-- The server answered with an error. -/
  | server (method : String) (code : Int64) (message : String)
  /-- Params or a result of the method have the wrong shape. -/
  | codec (method : String) (detail : String)
  | unhandledServerRequest (method : String)
  | host (error : HostError)
  deriving DecidableEq, Repr

namespace ClientError

/-- What stands for the detail of a decoding failure where it is not kept. -/
def noDetail : String := "<serde>"

/-- A value of the wrong shape. -/
def undecodable (method : String) : ClientError := .codec method noDetail

/-- The cause in words. -/
def message : ClientError → String
  | .transport error => error.message
  | .conversion error => error.message
  | .connectionClosed => "connection to the language server is closed"
  | .server method code message =>
    s!"language server failed '{method}' with code " ++ toString code.toInt ++ s!": {message}"
  | .codec method detail => s!"failed to encode or decode '{method}': {detail}"
  | .unhandledServerRequest method => s!"no handler registered for server request '{method}'"
  | .host error => "host collaborator failed: " ++ error.message

/-- The deeper causes, the nearest first. -/
def sources : ClientError → List String
  | .transport (.connect _ source) => source.toList
  | .conversion (.invalidUri _ source) => [source.message]
  | .codec _ detail => [detail]
  | .host error => error.message :: error.source.toList
  | _ => []

/-- The code by which the server is told. -/
def code : ClientError → Int64
  | .unhandledServerRequest _ => ResponseError.methodNotFound
  | .codec _ _ => ResponseError.invalidParams
  | _ => ResponseError.internalError

/-- The failure as the server is told of it. -/
def toResponseError (error : ClientError) : ResponseError := ⟨error.code, error.message, none⟩

end ClientError

end LanguageClient
