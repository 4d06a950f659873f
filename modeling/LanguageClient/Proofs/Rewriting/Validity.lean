import LanguageClient.Config.Toml
import LanguageClient.Proofs.Reading.Continuations
import LanguageClient.Proofs.Rewriting.Prefixes

/-!
# Mappings that always convert

A configuration is refused if a prefix of a mapping can be no base. What is converted, however, is the text
that goes on from a prefix, and that may be no URL although the prefix is one: the end of `git://host` is
within its authority, so with `:x` after it there is a port that is no number. Such a prefix is open.

In a valid configuration every address is converted in a direction if no prefix that is put in there is open,
and a conversion that fails has put in an open one (`Config.rewriter_converts`). Whether a prefix is open can be
seen from the prefix alone, but nothing looks at it (`Config.rewriter_fails`). That the prefixes were read is no
more than what holds of every configuration that a text says (`Config.wasRead_parseIn`).
-/

namespace LanguageClient

/-- Both prefixes are URLs that were read. -/
def UriMapping.WasRead (mapping : UriMapping) : Prop :=
  ∀ direction, ∃ text, Url.parse text = .ok (mapping.target direction)

/-- A URL in a value was parsed from the text that says it. -/
theorem Url.required_ofJson {slot : Json.Slot} {url : Url} (read : slot.required Url.ofJson? = some url) :
    ∃ text, parse text = .ok url := by
  cases slot with
  | present value =>
    simp only [Json.Slot.required, ofJson?, Option.bind_eq_bind, Option.bind_eq_some_iff] at read
    obtain ⟨text, -, read⟩ := read
    split at read
    next found parsed =>
      cases read
      exact ⟨text, parsed⟩
    next => cases read
  | missing => cases read
  | beyond => cases read

/-- The prefixes of a mapping that a value says were read, both of them, since neither may be missing. -/
theorem UriMapping.wasRead_ofJson {value : Json} {mapping : UriMapping} (read : ofJson? value = some mapping) :
    mapping.WasRead := by
  simp only [ofJson?, Option.bind_eq_bind, Option.bind_eq_some_iff] at read
  obtain ⟨slots, -, read⟩ := read
  split at read
  next client server =>
    simp only [Option.bind_eq_some_iff] at read
    obtain ⟨first, clientRead, second, serverRead, same⟩ := read
    cases same
    rintro (_ | _)
    · exact Url.required_ofJson serverRead
    · exact Url.required_ofJson clientRead
  next => cases read

namespace Config

variable {config : Config}

/-! ## Configurations that were read -/

/-- The prefixes of a configuration that a value says were read. Mappings that are left out are no mappings,
and there is nothing to show for them. -/
theorem wasRead_ofJsonIn {dialect : Dialect} {value : Json} (read : ofJsonIn? dialect value = some config) :
    ∀ mapping ∈ config.uriMappings, mapping.WasRead := by
  simp only [ofJsonIn?, Option.bind_eq_bind, Option.bind_eq_some_iff] at read
  obtain ⟨slots, -, read⟩ := read
  split at read
  next folders selector mappings suffix options logging =>
    simp only [Option.bind_eq_some_iff] at read
    obtain ⟨_, -, _, -, pairs, mapped, _, -, _, -, _, -, same⟩ := read
    cases same
    intro mapping member
    cases mappings with
    | present value =>
      have mapped : (Json.Slot.present value).required (Json.list? UriMapping.ofJson?) = some pairs := mapped
      obtain ⟨item, decoded⟩ := Json.required_list?_mem mapped member
      exact UriMapping.wasRead_ofJson decoded
    | missing =>
      cases mapped
      cases member
    | beyond =>
      cases mapped
      cases member
  next => cases read

/-- Validating changes nothing: what it lets pass is the configuration itself. -/
theorem ok_of_validate {found : Config} (valid : config.validate = .ok found) : found = config := by
  unfold validate at valid
  split at valid
  · cases valid
  · cases valid
    rfl

/-- A configuration that a text says is valid, and its prefixes were read. So both premises of the main
theorem below hold of every configuration that was loaded from a file, in either dialect. -/
theorem wasRead_parseIn {path : Option String} {text : String} (said : parseIn path text = .ok config) :
    config.validate = .ok config ∧ ∀ mapping ∈ config.uriMappings, mapping.WasRead := by
  unfold parseIn at said
  split at said
  next => cases said
  next found read =>
    obtain rfl := ok_of_validate said
    refine ⟨said, ?_⟩
    obtain ⟨table, -, read⟩ := Option.bind_eq_some_iff.mp read
    unfold ofTable? at read
    dsimp only at read
    split at read
    next =>
      obtain ⟨decoded, decodes, fits⟩ := Option.bind_eq_some_iff.mp read
      split at fits
      next =>
        cases fits
        exact wasRead_ofJsonIn decodes
      next => cases fits
    next => cases read

/-! ## Conversions -/

/-- A prefix of a valid configuration can be a base. This is all that validating looks at. -/
theorem base_of_validate (valid : config.validate = .ok config) {mapping : UriMapping}
    (member : mapping ∈ config.uriMappings) (direction : Direction) :
    (mapping.target direction).cannotBeABase = false := by
  have faultless : config.badPrefix? = none := by
    unfold validate fault? at valid
    cases bad : config.badPrefix? with
    | none => rfl
    | some url =>
      rw [bad] at valid
      split at valid
      · cases valid
      next none =>
        split at none
        · cases none
        · cases none
  have sides : mapping.target direction ∈
      config.uriMappings.flatMap fun mapping => [mapping.client, mapping.server] := by
    refine List.mem_flatMap.mpr ⟨mapping, member, ?_⟩
    cases direction with
    | toServer => exact List.mem_cons_of_mem _ List.mem_cons_self
    | toClient => exact List.mem_cons_self
  simpa using List.find?_eq_none.mp faultless _ sides

/-- A text is read as an address just if it is a URL. -/
theorem read_ok_iff {text : String} : (∃ found, Url.read text = .ok found) ↔
    ∃ found, Url.parse text = .ok found := by
  unfold Url.read
  cases Url.parse text with
  | ok url => exact ⟨fun _ => ⟨url, rfl⟩, fun _ => ⟨url, rfl⟩⟩
  | error fault => exact ⟨nofun, nofun⟩

/-- A text that cannot be read is named in the failure, with the fault in it. -/
theorem read_error {text : String} {failure : ConversionError} (failed : Url.read text = .error failure) :
    ∃ fault, failure = .invalidUri text fault := by
  unfold Url.read at failed
  split at failed
  · cases failed
  · cases failed
    exact ⟨_, rfl⟩

section

variable (valid : config.validate = .ok config) (wasRead : ∀ mapping ∈ config.uriMappings, mapping.WasRead)
include valid wasRead

/-- The texts that go on from a prefix are addresses just if the prefix is not open, which can be told
without trying any of them. -/
theorem isOpen_iff {mapping : UriMapping} (member : mapping ∈ config.uriMappings) (direction : Direction) :
    (mapping.target direction).isOpen = false ↔ ∀ rest : List Char, ∃ found,
      Url.read (String.ofList ((mapping.target direction).text.toList ++ rest)) = .ok found := by
  obtain ⟨text, named⟩ := wasRead mapping member direction
  simp only [read_ok_iff]
  exact (Url.continues_iff named (base_of_validate valid member direction)).1

/-- A conversion that fails has put in an open prefix, and the failure names the text that came about by it.
-/
theorem isOpen_of_convert {direction : Direction} {url : Url} {failure : ConversionError}
    (failed : config.rewriter.convert direction url = .error failure) :
    ∃ mapping ∈ config.uriMappings, (mapping.target direction).isOpen = true ∧ ∃ rest fault,
      url.text.toList = (mapping.source direction).text.toList ++ rest ∧
      failure = .invalidUri (String.ofList ((mapping.target direction).text.toList ++ rest)) fault := by
  rw [rewriter, Rewriter.convert_ofMappings, Rewriter.swap] at failed
  split at failed
  next => cases failed
  next target rest found =>
    obtain ⟨source, paired, front⟩ := Rewriter.mem_of_findPrefix? found
    obtain ⟨mapping, member, same⟩ := List.mem_map.mp paired
    cases same
    obtain ⟨fault, rfl⟩ := read_error failed
    refine ⟨mapping, member, ?_, rest, fault, front, rfl⟩
    -- From a prefix that is not open every text goes on, also the one that did not read.
    by_contra closed
    obtain ⟨found, read⟩ :=
      (isOpen_iff valid wasRead member direction).mp (Bool.not_eq_true _ ▸ closed) rest
    cases read.symm.trans failed

/-- A URL is not converted that goes on, after a prefix for which an open one is put in, with what breaks
that one. -/
theorem convert_breaks {direction : Direction} {url target : Url} (opened : target.isOpen = true)
    (found : Rewriter.findPrefix? url (Rewriter.sides config.uriMappings direction) =
      some (target, target.breaker)) :
    ∃ failure, config.rewriter.convert direction url = .error failure := by
  obtain ⟨source, paired, -⟩ := Rewriter.mem_of_findPrefix? found
  obtain ⟨mapping, member, same⟩ := List.mem_map.mp paired
  cases same
  obtain ⟨text, named⟩ := wasRead mapping member direction
  obtain ⟨fault, broken⟩ :=
    (Url.continues_iff named (base_of_validate valid member direction)).2 opened
  rw [rewriter, Rewriter.convert_ofMappings, Rewriter.swap, found]
  exact ⟨_, by simp only [Url.read, broken]; rfl⟩

end

/-- In a valid configuration whose prefixes were read: every text that goes on from a prefix is an address
just if the prefix is not open. So in a direction in which no open prefix is put in, every URL is converted,
and where a conversion fails, an open prefix was put in. One that is put in fails with what breaks it. -/
theorem rewriter_converts (valid : config.validate = .ok config)
    (wasRead : ∀ mapping ∈ config.uriMappings, mapping.WasRead) :
    (∀ mapping ∈ config.uriMappings, ∀ direction,
      (mapping.target direction).isOpen = false ↔ ∀ rest : List Char, ∃ found,
        Url.read (String.ofList ((mapping.target direction).text.toList ++ rest)) = .ok found) ∧
    (∀ direction, (∀ mapping ∈ config.uriMappings, (mapping.target direction).isOpen = false) →
      ∀ url, ∃ found, config.rewriter.convert direction url = .ok found) ∧
    (∀ direction url failure, config.rewriter.convert direction url = .error failure →
      ∃ mapping ∈ config.uriMappings, (mapping.target direction).isOpen = true ∧ ∃ rest fault,
        url.text.toList = (mapping.source direction).text.toList ++ rest ∧
        failure =
          .invalidUri (String.ofList ((mapping.target direction).text.toList ++ rest)) fault) ∧
    (∀ direction url target, target.isOpen = true →
      Rewriter.findPrefix? url (Rewriter.sides config.uriMappings direction) =
        some (target, target.breaker) →
      ∃ failure, config.rewriter.convert direction url = .error failure) := by
  refine ⟨fun mapping member direction => isOpen_iff valid wasRead member direction,
    fun direction closed url => ?_, fun direction url failure failed => isOpen_of_convert valid wasRead failed,
    fun direction url target opened found => convert_breaks valid wasRead opened found⟩
  cases converted : config.rewriter.convert direction url with
  | ok found => exact ⟨found, rfl⟩
  | error failure =>
    obtain ⟨mapping, member, opened, -⟩ := isOpen_of_convert valid wasRead converted
    exact absurd ((closed mapping member).symm.trans opened) Bool.false_ne_true

/-- Prefixes that end in a path, after its first slash or before its last, and in a fragment. -/
def closed : Config :=
  { Config.default with uriMappings :=
      [⟨⟨"file:///"⟩, ⟨"memfs:/project"⟩⟩, ⟨⟨"git://host/app?abc#"⟩, ⟨"http://host/"⟩⟩] }

/-- Where no prefix is open, every URL is converted in both directions. -/
theorem rewriter_converts_closed :
    closed.validate = .ok closed ∧ ∀ direction url, ∃ found, closed.rewriter.convert direction url = .ok found := by
  have valid : closed.validate = .ok closed := by rfl
  have wasRead : ∀ mapping ∈ closed.uriMappings, mapping.WasRead := by
    refine List.forall_mem_cons.mpr ⟨?_, List.forall_mem_singleton.mpr ?_⟩
    · rintro (_ | _)
      · exact ⟨"memfs:/project", by rfl⟩
      · exact ⟨"file:///", by rfl⟩
    · rintro (_ | _)
      · exact ⟨"http://host/", by rfl⟩
      · exact ⟨"git://host/app?abc#", by rfl⟩
  refine ⟨valid, fun direction => (rewriter_converts valid wasRead).2.1 direction ?_⟩
  cases direction with
  | toServer => decide
  | toClient => decide

/-- The configuration in which the files of a machine are those of a host. -/
def opened : Config := { Config.default with uriMappings := [⟨⟨"file:///"⟩, ⟨"git://h"⟩⟩] }

/-- A valid configuration of URLs does not convert a URL. -/
theorem rewriter_fails : opened.validate = .ok opened ∧
    Url.parse "file:///" = .ok ⟨"file:///"⟩ ∧ Url.parse "git://h" = .ok ⟨"git://h"⟩ ∧
    Url.parse "file:///:x" = .ok ⟨"file:///:x"⟩ ∧
    opened.rewriter.toServer ⟨"file:///:x"⟩ = .error (.invalidUri "git://h:x" .invalidPort) := by
  exact ⟨by rfl, by rfl, by rfl, by rfl, by rfl⟩

end Config

end LanguageClient
