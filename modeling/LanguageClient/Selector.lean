import LanguageClient.Json.Decoder
import LanguageClient.Rewriter

/-!
# Document selectors

A selector says which documents a provider serves: by language, by scheme, by a pattern. A server
that serves one root sees only documents under that root, so its selectors are scoped: every entry
gets a pattern, and the pattern is read as an address relative to the root.
-/

namespace LanguageClient

/-- A filter of documents; what it leaves out does not count. -/
structure DocumentFilter where
  language : Option String
  scheme : Option String
  pattern : Option String
  deriving DecidableEq, Repr

/-- An entry of a selector. -/
inductive SelectorEntry where
  | language (name : String)
  | filter (filter : DocumentFilter)
  deriving DecidableEq, Repr

/-- The documents that any of the entries fits. -/
abbrev DocumentSelector := List SelectorEntry

namespace DocumentFilter

def toJson (filter : DocumentFilter) : Json :=
  .obj (Json.field? "language" (filter.language.map .str) ++
    Json.field? "pattern" (filter.pattern.map .str) ++
    Json.field? "scheme" (filter.scheme.map .str))

def ofJson? (dialect : Dialect) (value : Json) : Option DocumentFilter := do
  match ← value.slots? ["language", "scheme", "pattern"] with
  | [language, scheme, pattern] =>
    let optional (slot : Json.Slot) : Option (Option String) :=
      slot.orElse none (Json.Slot.optionalIn dialect Json.string?)
    some {
      language := ← optional language
      scheme := ← optional scheme
      pattern := ← optional pattern }
  | _ => none

end DocumentFilter

namespace SelectorEntry

/-- The entry as a filter. -/
def toFilter : SelectorEntry → DocumentFilter
  | .language name => ⟨some name, none, none⟩
  | .filter given => given

def toJson : SelectorEntry → Json
  | .language name => .str name
  | .filter given => given.toJson

def ofJson? (dialect : Dialect) (value : Json) : Option SelectorEntry :=
  (value.string?.map .language).or ((DocumentFilter.ofJson? dialect value).map .filter)

end SelectorEntry

namespace DocumentSelector

def toJson (selector : DocumentSelector) : Json := .arr (selector.map SelectorEntry.toJson)

/-- The selector that a value is. -/
def ofJsonIn? (dialect : Dialect) (value : Json) : Option DocumentSelector :=
  value.list? (SelectorEntry.ofJson? dialect)

def ofJson? (value : Json) : Option DocumentSelector := ofJsonIn? Json.dialect value

/-- The pattern of everything. -/
def everything : String := "**"

/-- The selector of everything. -/
def all : DocumentSelector := [.filter ⟨none, none, some everything⟩]

/-- The selector, or that of everything where there is none or it is empty. -/
def orAll : Option DocumentSelector → DocumentSelector
  | none | some [] => all
  | some selector => selector

/-- The entry with its pattern read relative to a directory. -/
def scopeEntry (directory : Url) (entry : SelectorEntry) : Except ConversionError SelectorEntry :=
  let filter := entry.toFilter
  let pattern := filter.pattern.getD everything
  match directory.join pattern with
  | .ok url => .ok (.filter { filter with pattern := some url.text })
  | .error fault => .error (.invalidUri pattern fault)

/-- The selector within a root, if there is one; the first entry that cannot be read fails. -/
def scope (selector : Option DocumentSelector) (root : Option Url) :
    Except ConversionError DocumentSelector :=
  match root with
  | none => .ok (orAll selector)
  | some root => (orAll selector).mapM (scopeEntry root.asDirectory)

end DocumentSelector

end LanguageClient
