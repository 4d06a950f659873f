import LanguageClient.Json.Decoder
import LanguageClient.UriReference

/-!
# Places in documents

Positions, ranges, locations and links, and the three shapes in which a server answers where
something is defined. Lines and characters are numbers of 32 bits without a sign.
-/

namespace LanguageClient

def UriReference.ofJson? (value : Json) : Option UriReference := value.string? >>= ofText?

def UriReference.toJson (reference : UriReference) : Json := .str reference.text

/-- A number of 32 bits as a value. -/
def Json.natural (n : UInt32) : Json := .num (.int n.toNat)

/-- A place in a document. -/
structure Position where
  line : UInt32
  character : UInt32
  deriving DecidableEq, Repr

namespace Position

def toJson (position : Position) : Json :=
  .obj [("character", Json.natural position.character), ("line", Json.natural position.line)]

def ofJson? (value : Json) : Option Position := do
  match ← value.slots? ["line", "character"] with
  | [line, character] =>
    some { line := ← line.required Json.uint32?, character := ← character.required Json.uint32? }
  | _ => none

end Position

/-- What lies between two positions. -/
structure Range where
  start : Position
  stop : Position
  deriving DecidableEq, Repr

namespace Range

def toJson (range : Range) : Json :=
  .obj [("end", range.stop.toJson), ("start", range.start.toJson)]

def ofJson? (value : Json) : Option Range := do
  match ← value.slots? ["start", "end"] with
  | [start, stop] =>
    some { start := ← start.required Position.ofJson?, stop := ← stop.required Position.ofJson? }
  | _ => none

end Range

/-- A range of a document. -/
structure Location where
  uri : UriReference
  range : Range
  deriving DecidableEq

namespace Location

def toJson (location : Location) : Json :=
  .obj [("range", location.range.toJson), ("uri", location.uri.toJson)]

def ofJson? (value : Json) : Option Location := do
  match ← value.slots? ["uri", "range"] with
  | [uri, range] =>
    some { uri := ← uri.required UriReference.ofJson?, range := ← range.required Range.ofJson? }
  | _ => none

end Location

/-- A link from one range to another, of which a part is to be selected. -/
structure LocationLink where
  originSelectionRange : Option Range
  targetUri : UriReference
  targetRange : Range
  targetSelectionRange : Range
  deriving DecidableEq

namespace LocationLink

def toJson (link : LocationLink) : Json :=
  .obj (Json.field? "originSelectionRange" (link.originSelectionRange.map Range.toJson) ++
    [("targetRange", link.targetRange.toJson),
     ("targetSelectionRange", link.targetSelectionRange.toJson),
     ("targetUri", link.targetUri.toJson)])

def ofJson? (value : Json) : Option LocationLink := do
  match ← value.slots?
    ["originSelectionRange", "targetUri", "targetRange", "targetSelectionRange"] with
  | [origin, uri, range, selection] =>
    some {
      originSelectionRange := ← origin.optional Range.ofJson?
      targetUri := ← uri.required UriReference.ofJson?
      targetRange := ← range.required Range.ofJson?
      targetSelectionRange := ← selection.required Range.ofJson? }
  | _ => none

end LocationLink

/-- Where something is defined. -/
inductive Definitions where
  | one (location : Location)
  | many (locations : List Location)
  | links (links : List LocationLink)
  deriving DecidableEq

namespace Definitions

def toJson : Definitions → Json
  | .one location => location.toJson
  | .many locations => .arr (locations.map Location.toJson)
  | .links found => .arr (found.map LocationLink.toJson)

/-- The answer that a value is: the first shape that fits. -/
def ofJson? (value : Json) : Option Definitions :=
  ((Location.ofJson? value).map .one).or
    (((value.list? Location.ofJson?).map .many).or
      ((value.list? LocationLink.ofJson?).map .links))

end Definitions

/-- The value, or nothing for `null`. -/
def Json.nullable? {α : Type} (decode : Json → Option α) (value : Json) : Option (Option α) :=
  if value.isNull then some none else (decode value).map some

/-- The value of an option, `null` for nothing. -/
def Json.ofOption {α : Type} (encode : α → Json) : Option α → Json
  | none => .null
  | some a => encode a

end LanguageClient
