import LanguageClient.Protocol.Location
import LanguageClient.Protocol.Token
import LanguageClient.Url

/-!
# Documents on the wire

How the client tells a server of an open document, and how it asks about a place in one.
-/

namespace LanguageClient

/-- A document that the host has open. -/
structure TextDocument where
  uri : Url
  languageId : String
  text : String
  deriving DecidableEq, Repr

/-- The method by which a server learns of an open document. -/
def didOpenMethod : String := "textDocument/didOpen"

/-- The version of a document when it is first told. -/
def firstVersion : Int := 1

/-- The params that tell of a document under the name that the server knows. -/
def TextDocument.openParams (document : TextDocument) (uri : UriReference) : Json :=
  .obj [("textDocument", .obj [("languageId", .str document.languageId),
    ("text", .str document.text), ("uri", uri.toJson), ("version", Json.int firstVersion)])]

/-- A place in a document, with what a request for it may carry. -/
structure PositionParams where
  document : UriReference
  position : Position
  workDoneToken : Option Token
  partialResultToken : Option Token
  deriving DecidableEq

namespace PositionParams

def documentToJson (uri : UriReference) : Json := .obj [("uri", uri.toJson)]

def documentOfJson? (value : Json) : Option UriReference := do
  match ← value.slots? ["uri"] with
  | [uri] => uri.required UriReference.ofJson?
  | _ => none

/-- A place in a document and nothing more. -/
def ofPlace (document : UriReference) (position : Position) : PositionParams :=
  ⟨document, position, none, none⟩

def toJson (p : PositionParams) : Json :=
  .obj (Json.field? "partialResultToken" (p.partialResultToken.map Token.toJson) ++
    [("position", p.position.toJson), ("textDocument", documentToJson p.document)] ++
    Json.field? "workDoneToken" (p.workDoneToken.map Token.toJson))

/-- The params with the wish that declarations be found as well, or not. -/
def withDeclaration (p : PositionParams) (wanted : Bool) : Json :=
  .obj [("context", .obj [("includeDeclaration", .bool wanted)]),
    ("position", p.position.toJson), ("textDocument", documentToJson p.document)]

/-- The params that an object is; a token for partial results counts only where one is known. -/
def ofJson? (partialResults : Bool) (value : Json) : Option PositionParams := do
  match value with
  | .obj fields =>
    let document ← Json.lookup "textDocument" fields
    let position ← Json.lookup "position" fields
    let token (key : String) : Option (Option Token) :=
      Json.nullable? Token.ofJson? ((Json.lookup key fields).getD .null)
    some {
      document := ← documentOfJson? document
      position := ← Position.ofJson? position
      workDoneToken := ← token "workDoneToken"
      partialResultToken := ← if partialResults then token "partialResultToken" else some none }
  | _ => none

end PositionParams

end LanguageClient
