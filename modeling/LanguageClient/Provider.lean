import LanguageClient.Feature
import LanguageClient.Protocol.Document
import LanguageClient.Protocol.Hover

/-!
# Providers

How the host asks a provider about a place in a document, what the server is asked, and how its
result is taken over: addresses are rewritten for the host, then the result is decoded. A result
that holds no answer is `null`.
-/

namespace LanguageClient

/-- What the host asks. -/
structure Question where
  document : Url
  position : Position
  includeDeclaration : Bool
  deriving DecidableEq, Repr

/-- A hover text of the host. -/
structure HostHover where
  contents : String
  range : Option Range
  deriving DecidableEq, Repr

/-- A place in a document of the host. -/
structure HostLocation where
  uri : Url
  range : Range
  deriving DecidableEq, Repr

/-- What the host is told. -/
inductive Answer where
  | hover (hover : Option HostHover)
  | locations (locations : List HostLocation)
  deriving DecidableEq, Repr

/-- The markdown of a marked text. -/
def MarkedText.markdown : MarkedText → String
  | .plain text => text
  | .code language text => s!"```{language}\n{text}\n```"

/-- The markdown of hover contents; several texts are paragraphs. -/
def HoverContents.markdown : HoverContents → String
  | .one text => text.markdown
  | .many texts => "\n\n".intercalate (texts.map MarkedText.markdown)
  | .markup _ text => text

def Hover.toHost (hover : Hover) : HostHover := ⟨hover.contents.markdown, hover.range⟩

def Location.toHost (location : Location) : Except ConversionError HostLocation :=
  (Url.read location.uri.text).map fun uri => ⟨uri, location.range⟩

/-- The place that a link selects. -/
def LocationLink.toHost (link : LocationLink) : Except ConversionError HostLocation :=
  (Url.read link.targetUri.text).map fun uri => ⟨uri, link.targetSelectionRange⟩

/-- The locations for the host, or the first failure. -/
def Definitions.toHost : Definitions → Except ConversionError (List HostLocation)
  | .one location => location.toHost.map fun found => [found]
  | .many found => found.mapM Location.toHost
  | .links found => found.mapM LocationLink.toHost

namespace Answer

/-- A value of the given shape, or the failure to decode it. -/
def decoded {α : Type} (method : String) (decode : Json → Option α) (value : Json) :
    Except ClientError (Option α) :=
  match Json.nullable? decode value with
  | some found => .ok found
  | none => .error (.undecodable method)

/-- Locations, or the failure to name them. -/
def ofLocations : Except ConversionError (List HostLocation) → Except ClientError Answer
  | .ok found => .ok (.locations found)
  | .error failure => .error (.conversion failure)

/-- The answer that a result holds, its addresses being those of the host already. -/
def ofResult (kind : ProviderKind) (method : String) (value : Json) :
    Except ClientError Answer := do
  match kind with
  | .hover =>
    let found ← decoded method Hover.ofJson? value
    pure (.hover (found.map Hover.toHost))
  | .references =>
    let found ← decoded method (Json.list? Location.ofJson?) value
    ofLocations ((found.getD []).mapM Location.toHost)
  | .definition | .typeDefinition | .implementation =>
    match ← decoded method Definitions.ofJson? value with
    | none => pure (.locations [])
    | some found => ofLocations found.toHost

end Answer

namespace Feature

/-- The params by which a server is asked. -/
def requestParams (feature : Feature) (document : UriReference) (question : Question) : Json :=
  let place := PositionParams.ofPlace document question.position
  match feature.kind with
  | .references => place.withDeclaration question.includeDeclaration
  | _ => place.toJson

/-- The request for a question: its params, or the failure to name the document. -/
def ask (feature : Feature) (rewriter : Rewriter) (question : Question) :
    Except ClientError Json :=
  match rewriter.toReference question.document with
  | .ok document => .ok (feature.requestParams document question)
  | .error failure => .error (.conversion failure)

/-- The answer that the outcome of a request holds. -/
def answer (feature : Feature) (rewriter : Rewriter) (outcome : Except ClientError Json) :
    Except ClientError Answer := do
  let value ← outcome
  match rewriter.rewriteAll .toClient feature.addressNames value with
  | .error failure => .error (.conversion failure)
  | .ok value => Answer.ofResult feature.kind feature.method value

end Feature

end LanguageClient
