import LanguageClient.Protocol.Location
import LanguageClient.Protocol.Token

/-!
# Diagnostics

What a server finds at fault in a document, and the notification that publishes it.
-/

namespace LanguageClient

/-- Another place that has to do with a diagnostic. -/
structure RelatedInformation where
  location : Location
  message : String
  deriving DecidableEq

namespace RelatedInformation

def toJson (information : RelatedInformation) : Json :=
  .obj [("location", information.location.toJson), ("message", .str information.message)]

def ofJson? (value : Json) : Option RelatedInformation := do
  match ← value.slots? ["location", "message"] with
  | [location, message] =>
    some {
      location := ← location.required Location.ofJson?
      message := ← message.required Json.string? }
  | _ => none

end RelatedInformation

/-- A fault in a document. -/
structure Diagnostic where
  range : Range
  severity : Option Int32
  code : Option Token
  codeDescription : Option UriReference
  source : Option String
  message : String
  relatedInformation : Option (List RelatedInformation)
  tags : Option (List Int32)
  data : Option Json
  deriving DecidableEq

namespace Diagnostic

def descriptionToJson (href : UriReference) : Json := .obj [("href", href.toJson)]

def descriptionOfJson? (value : Json) : Option UriReference := do
  match ← value.slots? ["href"] with
  | [href] => href.required UriReference.ofJson?
  | _ => none

def toJson (d : Diagnostic) : Json :=
  .obj (Json.field? "code" (d.code.map Token.toJson) ++
    Json.field? "codeDescription" (d.codeDescription.map descriptionToJson) ++
    Json.field? "data" d.data ++
    [("message", .str d.message), ("range", d.range.toJson)] ++
    Json.field? "relatedInformation"
      (d.relatedInformation.map fun xs => .arr (xs.map RelatedInformation.toJson)) ++
    Json.field? "severity" (d.severity.map Json.integer) ++
    Json.field? "source" (d.source.map .str) ++
    Json.field? "tags" (d.tags.map fun xs => .arr (xs.map Json.integer)))

def ofJson? (value : Json) : Option Diagnostic := do
  match ← value.slots? ["range", "severity", "code", "codeDescription", "source", "message",
    "relatedInformation", "tags", "data"] with
  | [range, severity, code, description, source, message, related, tags, data] =>
    some {
      range := ← range.required Range.ofJson?
      severity := ← severity.optional Json.int32?
      code := ← code.optional Token.ofJson?
      codeDescription := ← description.optional descriptionOfJson?
      source := ← source.optional Json.string?
      message := ← message.required Json.string?
      relatedInformation := ← related.optional (Json.list? RelatedInformation.ofJson?)
      tags := ← tags.optional (Json.list? Json.int32?)
      data := ← data.optional Json.any? }
  | _ => none

end Diagnostic

/-- The faults of a document, in place of all earlier ones. -/
structure PublishedDiagnostics where
  uri : UriReference
  diagnostics : List Diagnostic
  version : Option Int32
  deriving DecidableEq

namespace PublishedDiagnostics

def method : String := "textDocument/publishDiagnostics"

def toJson (p : PublishedDiagnostics) : Json :=
  .obj ([("diagnostics", .arr (p.diagnostics.map Diagnostic.toJson)), ("uri", p.uri.toJson)] ++
    Json.field? "version" (p.version.map Json.integer))

def ofJson? (value : Json) : Option PublishedDiagnostics := do
  match ← value.slots? ["uri", "diagnostics", "version"] with
  | [uri, diagnostics, version] =>
    some {
      uri := ← uri.required UriReference.ofJson?
      diagnostics := ← diagnostics.required (Json.list? Diagnostic.ofJson?)
      version := ← version.optional Json.int32? }
  | _ => none

end PublishedDiagnostics

end LanguageClient
