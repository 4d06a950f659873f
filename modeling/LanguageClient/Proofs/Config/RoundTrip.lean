import LanguageClient.Config
import LanguageClient.Proofs.Messages.RoundTrip
import LanguageClient.Proofs.Registering.Options
import LanguageClient.Proofs.Rewriting.Prefixes

/-!
# Configurations there and back

A configuration that is written as a value is read back as it was, and a value that lacks some of its fields,
or its part about the log some of its own, is read as the configuration in which these are as in
`Config.default` (`Config.ofJson?_leaving`). So what stands for a field that is left out is the same wherever
it is said.

Options for the server that are `null` are the one thing that is not read back: they are read as none. The
prefixes of the mappings have to be URLs whose text reads as the URL. That a configuration is valid is not
asked here.
-/

namespace LanguageClient

/-! ## Leaving fields out -/

namespace Json

/-- The value without the fields of these names. -/
def without (keys : List String) : Json → Json
  | .obj fields => .obj (fields.filter fun field => field.1 ∉ keys)
  | value => value

/-- The value with a change made to one of its fields. -/
def modify (key : String) (change : Json → Json) : Json → Json
  | .obj fields => .obj (fields.map fun field => if field.1 = key then (key, change field.2) else field)
  | value => value

/-- What is found after some fields were left out: nothing under their keys, and what was there under the
others. -/
theorem lookup_without (keys : List String) (key : String) (fields : List (String × Json)) :
    lookup key (fields.filter fun field => field.1 ∉ keys) =
      if key ∈ keys then none else lookup key fields := by
  induction fields with
  | nil => exact (ite_self none).symm
  | cons field fields ih =>
    rw [List.filter_cons]
    by_cases left : field.1 ∈ keys
    · rw [if_neg (by simpa using left), ih, lookup]
      by_cases same : field.1 = key
      · rw [if_pos (same ▸ left), if_pos (same ▸ left)]
      · rw [if_neg same]
    · rw [if_pos (by simpa using left), lookup, ih, lookup]
      by_cases same : field.1 = key
      · rw [if_pos same, if_pos same, if_neg (same ▸ left)]
      · rw [if_neg same, if_neg same]

/-- What a record finds in an object from which fields are left out. -/
theorem slots?_without (keys names : List String) (fields : List (String × Json)) :
    ((obj fields).without keys).slots? names =
      some (names.map fun name => slotOf (if name ∈ keys then none else lookup name fields)) := by
  rw [without, slots?_obj]
  simp only [lookup_without]

/-- What a field is read as that may be left out, when it was written or is left out. -/
theorem orElse_leaving {α : Type} {decode : Slot → Option α} {written : Json} {value : α}
    (read : decode (.present written) = some value) (left : Prop) [Decidable left] (default : α) :
    (slotOf (if left then none else some written)).orElse default decode =
      some (if left then default else value) := by
  split
  · rfl
  · exact read

end Json

/-! ## Parts -/

/-- Each mode is found again by its name. -/
theorem WorkspaceFoldersMode.ofName?_name (mode : WorkspaceFoldersMode) : ofName? mode.name = some mode := by
  cases mode <;> rfl

/-- Each format is found again by its name. -/
theorem LogFormat.ofName?_name (format : LogFormat) : ofName? format.name = some format := by
  cases format <;> rfl

/-- A URL whose text reads as it is read back from its text. -/
theorem Url.ofJson?_text {url : Url} (readsBack : url.ReadsBack) : ofJson? (.str url.text) = some url := by
  unfold ofJson?
  rw [Json.string?, Option.bind_eq_bind, Option.bind_some, readsBack]

namespace UriMapping

/-- A mapping is read back if both of its prefixes are. -/
theorem ofJson?_toJson {mapping : UriMapping} (client : mapping.client.ReadsBack)
    (server : mapping.server.ReadsBack) : ofJson? mapping.toJson = some mapping := by
  have read : ofJson? mapping.toJson = (Url.ofJson? (.str mapping.client.text)).bind fun client =>
      (Url.ofJson? (.str mapping.server.text)).bind fun server => some ⟨client, server⟩ := rfl
  rw [read, Url.ofJson?_text client, Url.ofJson?_text server]
  rfl

/-- Mappings are read back one by one, so all of them are. -/
theorem list?_toJson {mappings : List UriMapping}
    (readsBack : ∀ mapping ∈ mappings, mapping.client.ReadsBack ∧ mapping.server.ReadsBack) :
    Json.list? ofJson? (.arr (mappings.map toJson)) = some mappings := by
  rw [Json.list?]
  induction mappings with
  | nil => rfl
  | cons mapping mappings ih =>
    obtain ⟨⟨client, server⟩, rest⟩ := List.forall_mem_cons.mp readsBack
    rw [List.map_cons, List.mapM_cons, ofJson?_toJson client server, ih rest]
    rfl

end UriMapping

namespace Logging

/-- The part with some of its fields as they are by default. -/
def leaving (keys : List String) (logging : Logging) : Logging where
  filter := if "filter" ∈ keys then default.filter else logging.filter
  format := if "format" ∈ keys then default.format else logging.format

/-- The part about the log is read back, with the fields that are left out as they are by default. -/
theorem ofJson?_without (keys : List String) (logging : Logging) :
    ofJson? Json.dialect (logging.toJson.without keys) = some (logging.leaving keys) := by
  have found : (logging.toJson.without keys).slots? ["filter", "format"] =
      some [Json.slotOf (if "filter" ∈ keys then none else some (.str logging.filter)),
        Json.slotOf (if "format" ∈ keys then none else some (.str logging.format.name))] :=
    Json.slots?_without keys _ _
  have text : Json.Slot.required Json.string? (.present (.str logging.filter)) = some logging.filter := rfl
  have named : Json.Slot.required (fun v => v.variant? Json.dialect >>= LogFormat.ofName?)
      (.present (.str logging.format.name)) = some logging.format := LogFormat.ofName?_name logging.format
  unfold ofJson?
  rw [found, Option.bind_eq_bind, Option.bind_some]
  dsimp only
  rw [Json.orElse_leaving text, Json.orElse_leaving named]
  rfl

end Logging

namespace Config

/-- The configuration with some of its fields, and some of those of the part about the log, as they are by
default. -/
def leaving (keys loggingKeys : List String) (config : Config) : Config where
  workspaceFolders := if "workspace_folders" ∈ keys then default.workspaceFolders else config.workspaceFolders
  documentSelector := if "document_selector" ∈ keys then default.documentSelector else config.documentSelector
  uriMappings := if "uri_mappings" ∈ keys then default.uriMappings else config.uriMappings
  progressSuffix := if "progress_suffix" ∈ keys then default.progressSuffix else config.progressSuffix
  initializationOptions :=
    if "initialization_options" ∈ keys then default.initializationOptions else config.initializationOptions
  logging := if "logging" ∈ keys then default.logging else config.logging.leaving loggingKeys

/-- The value of the configuration with some of its fields left out, and some of those of the part about the
log. -/
def toJsonWithout (keys loggingKeys : List String) (config : Config) : Json :=
  (config.toJson.modify "logging" (Json.without loggingKeys)).without keys

/-- The same for a configuration, whose fields are read one by one; the part about the log may lack some of
its own, or be left out as a whole. -/
theorem ofJson?_toJsonWithout (keys loggingKeys : List String) {config : Config}
    (some_ : config.initializationOptions ≠ some .null)
    (readsBack : ∀ mapping ∈ config.uriMappings, mapping.client.ReadsBack ∧ mapping.server.ReadsBack) :
    ofJson? (config.toJsonWithout keys loggingKeys) = some (config.leaving keys loggingKeys) := by
  have found : (config.toJsonWithout keys loggingKeys).slots? ["workspace_folders", "document_selector",
        "uri_mappings", "progress_suffix", "initialization_options", "logging"] =
      some [Json.slotOf (if "workspace_folders" ∈ keys then none else some (.str config.workspaceFolders.name)),
        Json.slotOf (if "document_selector" ∈ keys then none else some config.documentSelector.toJson),
        Json.slotOf (if "uri_mappings" ∈ keys then none
          else some (.arr (config.uriMappings.map UriMapping.toJson))),
        Json.slotOf (if "progress_suffix" ∈ keys then none else some (.str config.progressSuffix)),
        Json.slotOf (if "initialization_options" ∈ keys then none else config.initializationOptions),
        Json.slotOf (if "logging" ∈ keys then none else some (config.logging.toJson.without loggingKeys))] := by
    unfold toJsonWithout toJson
    cases config.initializationOptions <;> exact Json.slots?_without keys _ _
  have folders : Json.Slot.required (fun v => v.variant? Json.dialect >>= WorkspaceFoldersMode.ofName?)
      (.present (.str config.workspaceFolders.name)) = some config.workspaceFolders :=
    WorkspaceFoldersMode.ofName?_name config.workspaceFolders
  have selector : Json.Slot.required (DocumentSelector.ofJsonIn? Json.dialect)
      (.present config.documentSelector.toJson) = some config.documentSelector :=
    DocumentSelector.ofJson?_toJson config.documentSelector
  have mappings : Json.Slot.required (Json.list? UriMapping.ofJson?)
      (.present (.arr (config.uriMappings.map UriMapping.toJson))) = some config.uriMappings :=
    UriMapping.list?_toJson readsBack
  have suffix : Json.Slot.required Json.string? (.present (.str config.progressSuffix)) =
      some config.progressSuffix := rfl
  have logging : Json.Slot.required (Logging.ofJson? Json.dialect)
      (.present (config.logging.toJson.without loggingKeys)) = some (config.logging.leaving loggingKeys) :=
    config.logging.ofJson?_without loggingKeys
  -- Options that there are none of are not written, so their field may be missing though it was not left out.
  have options : (Json.slotOf (if "initialization_options" ∈ keys then none
        else config.initializationOptions)).orElse none (Json.Slot.optionalIn Json.dialect Json.any?) =
      some (if "initialization_options" ∈ keys then none else config.initializationOptions) := by
    refine (Json.orElse_slotOf _).trans (congrArg some (Json.noticed_eq_iff.mpr ?_))
    split
    · exact nofun
    · exact some_
  unfold ofJson? ofJsonIn?
  rw [found, Option.bind_eq_bind, Option.bind_some]
  dsimp only
  rw [Json.orElse_leaving folders, Json.orElse_leaving selector, Json.orElse_leaving mappings,
    Json.orElse_leaving suffix, options, Json.orElse_leaving logging]
  rfl

/-- A configuration is read back as it was written, and without any of its fields, or of those of the part
about the log, it is read as itself with just these as they are by default. -/
theorem ofJson?_leaving {config : Config} (some_ : config.initializationOptions ≠ some .null)
    (readsBack : ∀ mapping ∈ config.uriMappings, mapping.client.ReadsBack ∧ mapping.server.ReadsBack) :
    ofJson? config.toJson = some config ∧
    ∀ keys loggingKeys : List String,
      ofJson? (config.toJsonWithout keys loggingKeys) = some (config.leaving keys loggingKeys) := by
  have whole : config.toJsonWithout [] [] = config.toJson := by
    unfold toJsonWithout toJson
    cases config.initializationOptions <;> rfl
  have all : ofJson? (config.toJsonWithout [] []) = some (config.leaving [] []) :=
    ofJson?_toJsonWithout [] [] some_ readsBack
  rw [whole] at all
  exact ⟨all, fun keys loggingKeys => ofJson?_toJsonWithout keys loggingKeys some_ readsBack⟩

/-- A configuration with something in each of its fields. -/
def Sample.full : Config where
  workspaceFolders := .supported
  documentSelector :=
    [.language "lean", .filter ⟨none, some "file", some "**"⟩, .filter ⟨some "lean", none, none⟩]
  uriMappings := [⟨⟨"file:///ws"⟩, ⟨"file:///srv"⟩⟩]
  progressSuffix := " (remote)"
  initializationOptions := some (.obj [("deep", .null)])
  logging := ⟨"debug", .compact⟩

/-- A configuration with something in every field is read back, and two fields and one of the part about the
log are as they are by default when they are left out. -/
theorem ofJson?_leaving_full : ofJson? Sample.full.toJson = some Sample.full ∧
    ofJson? (Sample.full.toJsonWithout ["uri_mappings", "workspace_folders"] ["format"]) =
      some { Sample.full with
        workspaceFolders := .unsupported, uriMappings := [], logging := ⟨"debug", .json⟩ } ∧
    ofJson? (.obj []) = some default := by
  have readsBack : ∀ mapping ∈ Sample.full.uriMappings,
      mapping.client.ReadsBack ∧ mapping.server.ReadsBack := by
    intro mapping member
    cases List.mem_singleton.mp member
    exact ⟨rfl, rfl⟩
  obtain ⟨whole, without⟩ := @ofJson?_leaving Sample.full (by decide) readsBack
  exact ⟨whole, without _ _, without ["document_selector", "initialization_options", "logging",
    "progress_suffix", "uri_mappings", "workspace_folders"] []⟩

end Config

end LanguageClient
