import LanguageClient.Protocol.Location

/-!
# Hover texts

What a server has to say about a place: marked text, with or without a language, a list of such
texts, or one text of a stated kind.
-/

namespace LanguageClient

/-- A text with or without the name of a language. -/
inductive MarkedText where
  | plain (text : String)
  | code (language : String) (text : String)
  deriving DecidableEq, Repr

namespace MarkedText

def toJson : MarkedText → Json
  | .plain text => .str text
  | .code language text => .obj [("language", .str language), ("value", .str text)]

/-- The code that a value is. -/
def codeOfJson? (value : Json) : Option MarkedText := do
  match ← value.slots? ["language", "value"] with
  | [language, text] =>
    let language ← language.required Json.string?
    let text ← text.required Json.string?
    some (.code language text)
  | _ => none

def ofJson? (value : Json) : Option MarkedText :=
  (value.string?.map .plain).or (codeOfJson? value)

end MarkedText

/-- Whether a text has markup. -/
inductive MarkupKind where
  | plaintext
  | markdown
  deriving DecidableEq, Repr

namespace MarkupKind

def name : MarkupKind → String
  | .plaintext => "plaintext"
  | .markdown => "markdown"

def ofName? (text : String) : Option MarkupKind :=
  [plaintext, markdown].find? fun kind => kind.name = text

end MarkupKind

/-- What a hover shows. -/
inductive HoverContents where
  | one (text : MarkedText)
  | many (texts : List MarkedText)
  | markup (kind : MarkupKind) (text : String)
  deriving DecidableEq, Repr

namespace HoverContents

def toJson : HoverContents → Json
  | .one text => text.toJson
  | .many texts => .arr (texts.map MarkedText.toJson)
  | .markup kind text => .obj [("kind", .str kind.name), ("value", .str text)]

/-- The markup that a value is. -/
def markupOfJson? (value : Json) : Option HoverContents := do
  match ← value.slots? ["kind", "value"] with
  | [kind, text] =>
    let kind ← kind.required fun v => v.variant? Json.dialect >>= MarkupKind.ofName?
    let text ← text.required Json.string?
    some (.markup kind text)
  | _ => none

/-- The contents that a value is: the first shape that fits. -/
def ofJson? (value : Json) : Option HoverContents :=
  ((MarkedText.ofJson? value).map .one).or
    (((value.list? MarkedText.ofJson?).map .many).or (markupOfJson? value))

end HoverContents

/-- What a server says about a place. -/
structure Hover where
  contents : HoverContents
  range : Option Range
  deriving DecidableEq, Repr

namespace Hover

def toJson (hover : Hover) : Json :=
  .obj ([("contents", hover.contents.toJson)] ++
    Json.field? "range" (hover.range.map Range.toJson))

def ofJson? (value : Json) : Option Hover := do
  match ← value.slots? ["contents", "range"] with
  | [contents, range] =>
    some {
      contents := ← contents.required HoverContents.ofJson?
      range := ← range.optional Range.ofJson? }
  | _ => none

end Hover

end LanguageClient
