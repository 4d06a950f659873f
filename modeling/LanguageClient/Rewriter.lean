import LanguageClient.Error
import LanguageClient.UriReference

/-!
# Rewriting addresses

The host and the server may name one document differently. A `Rewriter` has a function for each
direction. `Rewriter.ofMappings` swaps the first prefix that fits for its counterpart and reads the
result as a URL again. `Rewriter.rewrite` changes addresses deep inside a payload: the text values
that stand directly under one of the given keys, at any depth.
-/

namespace LanguageClient

/-- Two prefixes that name the same place. -/
structure UriMapping where
  client : Url
  server : Url
  deriving DecidableEq, Repr

/-- Which side the result is for. -/
inductive Direction where
  | toServer
  | toClient
  deriving DecidableEq, Repr

/-- How an address of one side is named by the other. -/
structure Rewriter where
  toServer : Url → Except ConversionError Url
  toClient : Url → Except ConversionError Url

/-- The URL that a text says, with the text in the failure. -/
def Url.read (text : String) : Except ConversionError Url :=
  match Url.parse text with
  | .ok url => .ok url
  | .error fault => .error (.invalidUri text fault)

/-- The reference that a URL is. -/
def Url.toReference (url : Url) : Except ConversionError UriReference :=
  match UriReference.ofText? url.text with
  | some reference => .ok reference
  | none => .error (.noReference url.text)

/-- What follows the first text in the second. -/
def stripFront? : List Char → List Char → Option (List Char)
  | [], rest => some rest
  | _ :: _, [] => none
  | c :: cs, d :: ds => if c = d then stripFront? cs ds else none

namespace Rewriter

/-- Both sides use the same names. -/
def identity : Rewriter := ⟨.ok, .ok⟩

/-- The counterpart of the first prefix that fits, and what follows the prefix. -/
def findPrefix? (url : Url) : List (Url × Url) → Option (Url × List Char)
  | [] => none
  | (source, target) :: rest =>
    match stripFront? source.text.toList url.text.toList with
    | some tail => some (target, tail)
    | none => findPrefix? url rest

/-- The URL with the first prefix that fits swapped for its counterpart. -/
def swap (pairs : List (Url × Url)) (url : Url) : Except ConversionError Url :=
  match findPrefix? url pairs with
  | none => .ok url
  | some (target, tail) => Url.read (String.ofList (target.text.toList ++ tail))

/-- Swaps the prefixes of the mappings, the first that fits. -/
def ofMappings (mappings : List UriMapping) : Rewriter :=
  ⟨swap (mappings.map fun m => (m.client, m.server)),
   swap (mappings.map fun m => (m.server, m.client))⟩

/-- The rewriter, but with no name for what starts with the given texts. A client may be given conversions
of its own instead of those of its configuration; this is one that shares some of its URLs with no server,
or takes some from none. -/
def refusing (toServer toClient : Option String) (rewriter : Rewriter) : Rewriter :=
  ⟨guarded toServer rewriter.toServer, guarded toClient rewriter.toClient⟩
where
  guarded (refused : Option String) (convert : Url → Except ConversionError Url) (url : Url) :
      Except ConversionError Url :=
    match refused with
    | none => convert url
    | some text =>
      if (stripFront? text.toList url.text.toList).isSome then .error (.unmappable url.text)
      else convert url

/-- The name on the side that the direction points to. -/
def convert (rewriter : Rewriter) : Direction → Url → Except ConversionError Url
  | .toServer => rewriter.toServer
  | .toClient => rewriter.toClient

/-- The reference by which the server knows a URL of the host. -/
def toReference (rewriter : Rewriter) (url : Url) : Except ConversionError UriReference :=
  rewriter.toServer url >>= Url.toReference

/-- The URL by which the host knows a reference of the server. -/
def ofReference (rewriter : Rewriter) (reference : UriReference) : Except ConversionError Url :=
  Url.read reference.text >>= rewriter.toClient

/-- The address that a text says, converted. -/
def convertText (rewriter : Rewriter) (direction : Direction) (text : String) :
    Except ConversionError String :=
  (Url.read text >>= rewriter.convert direction).map Url.text

mutual

/-- The payload with its addresses converted, up to the first failure in the order of keys and
items. -/
def rewrite (rewriter : Rewriter) (direction : Direction) (names : List String) :
    Json → Json × Option ConversionError
  | .obj fields =>
    let (fields, failure) := rewriteFields rewriter direction names fields
    (.obj fields, failure)
  | .arr items =>
    let (items, failure) := rewriteItems rewriter direction names items
    (.arr items, failure)
  | .null => (.null, none)
  | .bool b => (.bool b, none)
  | .num n => (.num n, none)
  | .str s => (.str s, none)

def rewriteItems (rewriter : Rewriter) (direction : Direction) (names : List String) :
    List Json → List Json × Option ConversionError
  | [] => ([], none)
  | item :: rest =>
    match rewrite rewriter direction names item with
    | (item, some failure) => (item :: rest, some failure)
    | (item, none) =>
      let (rest, failure) := rewriteItems rewriter direction names rest
      (item :: rest, failure)

def rewriteFields (rewriter : Rewriter) (direction : Direction) (names : List String) :
    List (String × Json) → List (String × Json) × Option ConversionError
  | [] => ([], none)
  | (key, value) :: rest =>
    match rewriteField rewriter direction names key value with
    | (value, some failure) => ((key, value) :: rest, some failure)
    | (value, none) =>
      let (rest, failure) := rewriteFields rewriter direction names rest
      ((key, value) :: rest, failure)

/-- The value of a field: an address where it is a text under one of the names. -/
def rewriteField (rewriter : Rewriter) (direction : Direction) (names : List String)
    (key : String) : Json → Json × Option ConversionError
  | .str text =>
    if key ∈ names then
      match rewriter.convertText direction text with
      | .ok text => (.str text, none)
      | .error failure => (.str text, some failure)
    else (.str text, none)
  | .obj fields =>
    let (fields, failure) := rewriteFields rewriter direction names fields
    (.obj fields, failure)
  | .arr items =>
    let (items, failure) := rewriteItems rewriter direction names items
    (.arr items, failure)
  | .null => (.null, none)
  | .bool b => (.bool b, none)
  | .num n => (.num n, none)

end

/-- The payload with its addresses converted, or the first failure. -/
def rewriteAll (rewriter : Rewriter) (direction : Direction) (names : List String) (value : Json) :
    Except ConversionError Json :=
  match rewriter.rewrite direction names value with
  | (value, none) => .ok value
  | (_, some failure) => .error failure

end Rewriter

/-- The key of an address in most payloads. -/
def addressNames : List String := ["uri"]

/-- The keys of an address in payloads that may be links. -/
def linkNames : List String := ["uri", "targetUri"]

end LanguageClient
