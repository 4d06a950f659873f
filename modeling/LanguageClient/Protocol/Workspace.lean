import LanguageClient.Protocol.Location

/-!
# Workspaces on the wire

What the client says of itself and of its roots when it greets a server, and how it tells of roots
that come and go.
-/

namespace LanguageClient

/-- A root as a server is told of it. -/
structure WorkspaceFolder where
  uri : UriReference
  name : String
  deriving DecidableEq

def WorkspaceFolder.toJson (folder : WorkspaceFolder) : Json :=
  .obj [("name", .str folder.name), ("uri", folder.uri.toJson)]

/-- The folders that have come and gone. -/
structure FolderChange where
  added : List WorkspaceFolder
  removed : List WorkspaceFolder
  deriving DecidableEq

/-- The method by which a server is told of a change of folders. -/
def FolderChange.method : String := "workspace/didChangeWorkspaceFolders"

def FolderChange.toJson (change : FolderChange) : Json :=
  .obj [("event", .obj [("added", .arr (change.added.map WorkspaceFolder.toJson)),
    ("removed", .arr (change.removed.map WorkspaceFolder.toJson))])]

def initializeMethod : String := "initialize"

/-- The method by which the greeting ends. -/
def initializedMethod : String := "initialized"

/-- The name by which the client introduces itself. -/
def clientName : String := "weft-lsp-client"

/-- The version by which the client introduces itself. -/
def clientVersion : String := "0.1.0"

/-- What the client can do. -/
def clientCapabilities (multiRoot : Bool) : Json :=
  let dynamic : String × Json := ("dynamicRegistration", .bool true)
  let goto : Json := .obj [dynamic, ("linkSupport", .bool true)]
  .obj [("textDocument", .obj [
      ("definition", goto),
      ("hover", .obj [("contentFormat", .arr [.str "markdown", .str "plaintext"]), dynamic]),
      ("implementation", goto),
      ("publishDiagnostics", .obj []),
      ("references", .obj [dynamic]),
      ("typeDefinition", goto)]),
    ("workspace", .obj [("workspaceFolders", .bool multiRoot)])]

/-- The greeting of a client. -/
structure Greeting where
  rootUri : Option UriReference
  initializationOptions : Option Json
  multiRoot : Bool
  workspaceFolders : Option (List WorkspaceFolder)
  deriving DecidableEq

def Greeting.toJson (greeting : Greeting) : Json :=
  .obj ([("capabilities", clientCapabilities greeting.multiRoot),
      ("clientInfo", .obj [("name", .str clientName), ("version", .str clientVersion)])] ++
    Json.field? "initializationOptions" greeting.initializationOptions ++
    [("processId", .null), ("rootUri", Json.ofOption UriReference.toJson greeting.rootUri),
     ("workspaceFolders",
      Json.ofOption (fun fs => .arr (fs.map WorkspaceFolder.toJson)) greeting.workspaceFolders)])

/-- An item of the configuration that a server asks for. -/
structure ConfigurationItem where
  scopeUri : Option UriReference
  path : Option String
  deriving DecidableEq

namespace ConfigurationItem

/-- The method by which a server asks for configuration. -/
def method : String := "workspace/configuration"

def toJson (item : ConfigurationItem) : Json :=
  .obj (Json.field? "scopeUri" (item.scopeUri.map UriReference.toJson) ++
    Json.field? "section" (item.path.map .str))

def ofJson? (value : Json) : Option ConfigurationItem := do
  match ← value.slots? ["scopeUri", "section"] with
  | [scope, part] =>
    some {
      scopeUri := ← scope.optional UriReference.ofJson?
      path := ← part.optional Json.string? }
  | _ => none

/-- The items of a request. -/
def ofParams? (value : Json) : Option (List ConfigurationItem) := do
  match ← value.slots? ["items"] with
  | [items] => items.required (Json.list? ofJson?)
  | _ => none

end ConfigurationItem

end LanguageClient
