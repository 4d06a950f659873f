import LanguageClient.Protocol.Registration
import LanguageClient.Selector

/-!
# Features

The five things that a server can provide to the host, and how each is advertised, requested and
scoped. `Feature.all` is the table. A server advertises a feature by `true` or by an object; of an
object only the features with a declared selector read the selector.
-/

namespace LanguageClient

/-- What a provider provides. -/
inductive ProviderKind where
  | hover
  | definition
  | references
  | typeDefinition
  | implementation
  deriving DecidableEq, Repr

namespace ProviderKind

/-- Every kind, in the order of the table. -/
def all : List ProviderKind := [.hover, .definition, .references, .typeDefinition, .implementation]

def name : ProviderKind → String
  | .hover => "hover"
  | .definition => "definition"
  | .references => "references"
  | .typeDefinition => "type_definition"
  | .implementation => "implementation"

def ofName? (text : String) : Option ProviderKind := all.find? fun kind => kind.name = text

end ProviderKind

/-- Where the selector of an advertised feature comes from. -/
inductive SelectorPolicy where
  /-- It is the default selector. -/
  | inheritDefault
  /-- It is the one that the server declares, if any. -/
  | declared
  deriving DecidableEq, Repr

/-- A feature: its method, the name by which it is advertised, and how its results are read. -/
structure Feature where
  method : String
  capability : String
  kind : ProviderKind
  policy : SelectorPolicy
  addressNames : List String
  deriving DecidableEq, Repr

/-- What a registration says of its provider. -/
structure RegisterOptions where
  documentSelector : Option DocumentSelector
  deriving DecidableEq, Repr

namespace RegisterOptions

def toJson (options : RegisterOptions) : Json :=
  .obj [("documentSelector", (options.documentSelector.map DocumentSelector.toJson).getD .null)]

def ofJson? (value : Json) : Option RegisterOptions := do
  match ← value.slots? ["documentSelector"] with
  | [selector] =>
    some ⟨← selector.orElse none (Json.Slot.optional DocumentSelector.ofJson?)⟩
  | _ => none

/-- The options of a registration for the method; none at all are the same as `null`. -/
def ofRegistration (value : Option Json) (method : String) : Except ClientError RegisterOptions :=
  match value with
  | none | some .null => .ok ⟨none⟩
  | some value =>
    match ofJson? value with
    | some options => .ok options
    | none => .error (.undecodable method)

end RegisterOptions

namespace Feature

def all : List Feature :=
  [⟨"textDocument/hover", "hoverProvider", .hover, .inheritDefault, LanguageClient.addressNames⟩,
   ⟨"textDocument/definition", "definitionProvider", .definition, .inheritDefault, linkNames⟩,
   ⟨"textDocument/references", "referencesProvider", .references, .inheritDefault,
    LanguageClient.addressNames⟩,
   ⟨"textDocument/typeDefinition", "typeDefinitionProvider", .typeDefinition, .declared, linkNames⟩,
   ⟨"textDocument/implementation", "implementationProvider", .implementation, .declared, linkNames⟩]

def ofMethod? (method : String) : Option Feature := all.find? fun feature => feature.method = method

/-- The value by which the capabilities advertise the feature. -/
def advertised? (feature : Feature) (capabilities : Json) : Option Json :=
  match capabilities.get? feature.capability with
  | some (.bool true) => some (.bool true)
  | some (.obj fields) => some (.obj fields)
  | _ => none

/-- The options of a feature that is advertised with the given value. -/
def registerOptions (feature : Feature) (capability : Json) (default : DocumentSelector) :
    RegisterOptions :=
  match feature.policy with
  | .inheritDefault => ⟨some default⟩
  | .declared => ⟨(capability.get? "documentSelector").bind DocumentSelector.ofJson?⟩

/-- The registrations that the capabilities stand for, with ids of this client's own. -/
def staticRegistrations (capabilities : Json) (default : DocumentSelector) : List Registration :=
  let advertised := all.filterMap fun feature =>
    (feature.advertised? capabilities).map fun capability =>
      (feature.method, (feature.registerOptions capability default).toJson)
  advertised.mapIdx fun i (method, options) => ⟨.minted i, method, some options⟩

end Feature

end LanguageClient
