import LanguageClient.Selector
import LanguageClient.Text.Blank

/-!
# Configuration

What a client is told when it starts: whether one server serves several roots, which documents it
serves by default, how addresses are mapped, and how it logs. Every part may be left out and has a
default. `Config.validate` refuses a blank log filter and a mapping prefix that can be no base.
-/

namespace LanguageClient

/-- Whether one server serves several workspace folders. -/
inductive WorkspaceFoldersMode where
  | supported
  | unsupported
  deriving DecidableEq, Repr

namespace WorkspaceFoldersMode

def name : WorkspaceFoldersMode → String
  | .supported => "supported"
  | .unsupported => "unsupported"

def ofName? (text : String) : Option WorkspaceFoldersMode :=
  [supported, unsupported].find? fun mode => mode.name = text

/-- The mode of that name, in either case. -/
def ofText? (text : String) : Option WorkspaceFoldersMode := ofName? text.toLower

/-- Whether one connection serves all roots. -/
def isMultiRoot (mode : WorkspaceFoldersMode) : Bool := mode = .supported

def default : WorkspaceFoldersMode := .unsupported

end WorkspaceFoldersMode

/-- How a log line is written. -/
inductive LogFormat where
  | json
  | compact
  deriving DecidableEq, Repr

namespace LogFormat

def name : LogFormat → String
  | .json => "json"
  | .compact => "compact"

def ofName? (text : String) : Option LogFormat :=
  [json, compact].find? fun format => format.name = text

/-- The format of that name, in either case. -/
def ofText? (text : String) : Option LogFormat := ofName? text.toLower

end LogFormat

/-- What is logged, and how. -/
structure Logging where
  filter : String
  format : LogFormat
  deriving DecidableEq, Repr

/-! ## Defaults -/

def defaultLogFilter : String := "info"

def defaultLogFormat : LogFormat := .json

/-- A server is taken to handle one root unless it is said to handle more. -/
def defaultWorkspaceFolders : WorkspaceFoldersMode := .unsupported

def Logging.default : Logging := ⟨defaultLogFilter, defaultLogFormat⟩

/-- What a client is told when it starts. -/
structure Config where
  workspaceFolders : WorkspaceFoldersMode
  documentSelector : DocumentSelector
  uriMappings : List UriMapping
  progressSuffix : String
  initializationOptions : Option Json
  logging : Logging
  deriving DecidableEq, Repr

/-- The configuration in which nothing is set. What stands for a field that a value leaves out is said where the
value is read. -/
def Config.default : Config := ⟨.default, [], [], "", none, .default⟩

/-- Why there is no configuration. -/
inductive ConfigError where
  /-- The file cannot be read as text. -/
  | unreadable (path : String)
  /-- The text is no configuration; the path of its file, if it comes from one. -/
  | malformed (path : Option String)
  | emptyLogFilter
  /-- The prefix can be no base. -/
  | invalidMapping (text : String)
  deriving DecidableEq, Repr

/-- The cause in words; what the reader of the file or the text says is cut. -/
def ConfigError.message : ConfigError → String
  | .unreadable path => s!"failed to read configuration '{path}': "
  | .malformed none => "invalid configuration: "
  | .malformed (some path) => s!"invalid configuration in '{path}': "
  | .emptyLogFilter => "logging.filter must not be empty"
  | .invalidMapping text => s!"uri mapping prefix '{text}' cannot be used as a base URL"

/-! ## Values -/

def Url.ofJson? (value : Json) : Option Url := do
  match Url.parse (← value.string?) with
  | .ok url => some url
  | .error _ => none

def UriMapping.toJson (mapping : UriMapping) : Json :=
  .obj [("client", .str mapping.client.text), ("server", .str mapping.server.text)]

def UriMapping.ofJson? (value : Json) : Option UriMapping := do
  match ← value.slots? ["client", "server"] with
  | [client, server] =>
    some { client := ← client.required Url.ofJson?, server := ← server.required Url.ofJson? }
  | _ => none

def Logging.toJson (logging : Logging) : Json :=
  .obj [("filter", .str logging.filter), ("format", .str logging.format.name)]

def Logging.ofJson? (dialect : Dialect) (value : Json) : Option Logging := do
  match ← value.slots? ["filter", "format"] with
  | [filter, format] =>
    some {
      filter := ← filter.orElse defaultLogFilter (Json.Slot.required Json.string?)
      format := ← format.orElse defaultLogFormat
        (Json.Slot.required fun v => v.variant? dialect >>= LogFormat.ofName?) }
  | _ => none

namespace Config

def toJson (config : Config) : Json :=
  .obj ([("document_selector", config.documentSelector.toJson)] ++
    Json.field? "initialization_options" config.initializationOptions ++
    [("logging", config.logging.toJson),
     ("progress_suffix", .str config.progressSuffix),
     ("uri_mappings", .arr (config.uriMappings.map UriMapping.toJson)),
     ("workspace_folders", .str config.workspaceFolders.name)])

/-- The configuration that a value is. -/
def ofJsonIn? (dialect : Dialect) (value : Json) : Option Config := do
  match ← value.slots? ["workspace_folders", "document_selector", "uri_mappings",
    "progress_suffix", "initialization_options", "logging"] with
  | [folders, selector, mappings, suffix, options, logging] =>
    some {
      workspaceFolders := ← folders.orElse defaultWorkspaceFolders
        (Json.Slot.required fun v => v.variant? dialect >>= WorkspaceFoldersMode.ofName?)
      documentSelector := ← selector.orElse []
        (Json.Slot.required (DocumentSelector.ofJsonIn? dialect))
      uriMappings := ← mappings.orElse []
        (Json.Slot.required (Json.list? UriMapping.ofJson?))
      progressSuffix := ← suffix.orElse "" (Json.Slot.required Json.string?)
      initializationOptions := ← options.orElse none
        (Json.Slot.optionalIn dialect Json.any?)
      logging := ← logging.orElse Logging.default
        (Json.Slot.required (Logging.ofJson? dialect)) }
  | _ => none

def ofJson? (value : Json) : Option Config := ofJsonIn? Json.dialect value

/-! ## Validity -/

/-- The first mapping prefix that can be no base. -/
def badPrefix? (config : Config) : Option Url :=
  (config.uriMappings.flatMap fun m => [m.client, m.server]).find? Url.cannotBeABase

/-- The first fault, if there is one. -/
def fault? (config : Config) : Option ConfigError :=
  if isBlankText config.logging.filter then some .emptyLogFilter
  else config.badPrefix?.map fun url => .invalidMapping url.text

def validate (config : Config) : Except ConfigError Config :=
  match config.fault? with
  | some fault => .error fault
  | none => .ok config

def isMultiRoot (config : Config) : Bool := config.workspaceFolders.isMultiRoot

/-- How addresses are rewritten. -/
def rewriter (config : Config) : Rewriter := Rewriter.ofMappings config.uriMappings

end Config

end LanguageClient
