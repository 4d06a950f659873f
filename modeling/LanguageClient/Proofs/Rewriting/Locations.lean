import LanguageClient.Proofs.Rewriting.Decoding
import LanguageClient.Proofs.Traversal
import LanguageClient.Provider

/-!
# The locations of an answer

What the host is told of a result is what the server wrote, in the same order and with the same
ranges (`Written.ofResult_turns`). Its addresses are those that the server wrote, as the host names them,
wherever they stand under a key. In a record that is written as an array an address stands under no
key: it is read as it is written (`Feature.answer_locations`).
-/

namespace LanguageClient

/-- The text of every URL by which the host knows an address reads as that URL. -/
def Rewriter.ReadsBack (rewriter : Rewriter) : Prop :=
  ∀ text url, (Url.read text >>= rewriter.toClient) = .ok url → Url.parse url.text = .ok url

open Rewriter

/-! ## What the server writes -/

/-- A location as the server writes it. -/
structure Written where
  address : String
  /-- Whether the address stands under a key. -/
  keyed : Bool
  range : Range
  deriving DecidableEq, Repr

namespace Written

variable {rewriter : Rewriter} {names : List String} {place : Option String}
  {value turned : Json}

/-- A location, as it is written. -/
def ofLocation? (value : Json) : Option Written := do
  match ← value.slots? ["uri", "range"] with
  | [uri, range] =>
    some {
      address := ← uri.required Json.string?
      keyed := (placeIn value "uri").isSome
      range := ← range.required Range.ofJson? }
  | _ => none

/-- What a link selects, as it is written. -/
def ofLink? (value : Json) : Option Written := do
  match ← value.slots?
    ["originSelectionRange", "targetUri", "targetRange", "targetSelectionRange"] with
  | [origin, uri, range, selection] =>
    let _ ← origin.optional Range.ofJson?
    let address ← uri.required Json.string?
    let _ ← range.required Range.ofJson?
    some {
      address
      keyed := (placeIn value "targetUri").isSome
      range := ← selection.required Range.ofJson? }
  | _ => none

/-- The URL by which the host knows the address. -/
def named (rewriter : Rewriter) (written : Written) : Except ConversionError Url :=
  Url.read written.address >>= rewriter.toClient

/-- The text that is decoded, which is the converted one under a key. -/
def shown (rewriter : Rewriter) (written : Written) : Except ConversionError String :=
  if written.keyed then rewriter.convertText .toClient written.address else .ok written.address

/-- Whether what is decoded is an address of the protocol. -/
def fits (rewriter : Rewriter) (written : Written) : Bool :=
  match written.shown rewriter with
  | .ok text => UriReference.isValid text.toList
  | .error _ => false

/-- The location that the host is told of. -/
def toHost (rewriter : Rewriter) (written : Written) : Except ConversionError HostLocation :=
  (written.shown rewriter >>= Url.read).map fun uri => ⟨uri, written.range⟩

/-- The host is told of the location under the name that the address has for it. -/
def Renamed (rewriter : Rewriter) (written : Written) (location : HostLocation) : Prop :=
  location.range = written.range ∧ written.named rewriter = .ok location.uri

/-- The host is told of the location, under the name that the address has for it if the address
stands under a key, and as it is written otherwise. -/
def Told (rewriter : Rewriter) (written : Written) (location : HostLocation) : Prop :=
  location.range = written.range ∧
    (if written.keyed then written.named rewriter else Url.read written.address) = .ok location.uri

/-- The locations of a result, in the first of the shapes in which every address is one of the
protocol. -/
def listIn? (rewriter : Rewriter) (kind : ProviderKind) (value : Json) : Option (List Written) :=
  let location? value := (ofLocation? value).filter (fits rewriter)
  let link? value := (ofLink? value).filter (fits rewriter)
  if value.isNull then some []
  else
    match kind with
    | .hover => none
    | .references => value.list? location?
    | .definition | .typeDefinition | .implementation =>
      ((location? value).map fun only => [only]).or
        ((value.list? location?).or (value.list? link?))

/-! ## Decoding an address -/

/-- The reference that is decoded. -/
def reference? (rewriter : Rewriter) (written : Written) : Option UriReference :=
  match written.shown rewriter with
  | .ok text => UriReference.ofText? text
  | .error _ => none

/-- An address that is decoded is shown as it is: a reference keeps its text, and the host is told of the
URL that the text says. -/
theorem toHost_of_reference {written : Written} {reference : UriReference}
    (found : written.reference? rewriter = some reference) :
    written.fits rewriter = true ∧
      Location.toHost ⟨reference, written.range⟩ = written.toHost rewriter := by
  unfold reference? at found
  cases shown : written.shown rewriter with
  | error failure =>
    rw [shown] at found
    cases found
  | ok text =>
    simp only [shown, UriReference.ofText?] at found
    split at found
    next valid =>
      cases found
      refine ⟨?_, ?_⟩
      · simp only [fits, shown, valid]
      · simp only [toHost, shown]
        rfl
    next => cases found

/-- An address that is not decoded does not fit, because it is converted to no text or to one that is no
reference. -/
theorem fits_of_reference {written : Written} (found : written.reference? rewriter = none) :
    written.fits rewriter = false := by
  unfold reference? at found
  cases shown : written.shown rewriter with
  | error failure => simp only [fits, shown]
  | ok text =>
    simp only [shown, UriReference.ofText?] at found
    split at found
    next => cases found
    next invalid => simpa only [fits, shown, Bool.not_eq_true] using invalid

/-- The address of a record is decoded to what the rewritten text says. Under a key that is the converted
text, in an array it is the text that was written. -/
theorem required_address {name : String} {slot written : Json.Slot} (known : name ∈ names)
    (turns : rewriter.SlotTurns .toClient names (placeIn value name) slot written) (range : Range) :
    written.required UriReference.ofJson? = (slot.required Json.string?).bind fun address =>
      reference? rewriter ⟨address, (placeIn value name).isSome, range⟩ := by
  have addressed : Addressed names (placeIn value name) = (placeIn value name).isSome := by
    cases value with
    | obj => exact List.contains_iff_mem.mpr known
    | _ => rfl
  cases turns with
  | missing | beyond => rfl
  | @present value turned turns =>
    have become := turns.cases
    cases value with
    | null | bool | num =>
      cases become
      rfl
    | arr | obj =>
      obtain ⟨_, rfl, -⟩ := become
      rfl
    | str text =>
      obtain ⟨written, rfl, converted⟩ := become
      rw [addressed] at converted
      have shown : Written.shown rewriter ⟨text, (placeIn value name).isSome, range⟩ =
          .ok written := converted
      simp only [Json.Slot.required, UriReference.ofJson?, Json.string?, Option.bind_eq_bind,
        Option.bind_some, reference?, shown]

/-- A location is decoded and shown as its address is, and its range, which is read apart from it, goes
along. -/
theorem told_of_turns {name : String} {slot written : Json.Slot} (known : name ∈ names)
    (turns : rewriter.SlotTurns .toClient names (placeIn value name) slot written) (range : Range) :
    (written.required UriReference.ofJson?).map (fun uri => Location.toHost ⟨uri, range⟩) =
      (((slot.required Json.string?).map fun address =>
        (⟨address, (placeIn value name).isSome, range⟩ : Written)).filter (fits rewriter)).map
          (toHost rewriter) := by
  rw [required_address known turns range]
  cases slot.required Json.string? with
  | none => rfl
  | some address =>
    simp only [Option.bind_some, Option.map_some, Option.filter_some]
    cases decoded : reference? rewriter ⟨address, (placeIn value name).isSome, range⟩ with
    | none =>
      have unfit := fits_of_reference decoded
      simp only [unfit, Option.map_none, Bool.false_eq_true, if_false]
    | some reference =>
      obtain ⟨fit, told⟩ := toHost_of_reference decoded
      simp only [fit, told, Option.map_some, if_true]

/-! ## Decoding locations -/

/-- A location of the rewritten result is shown to the host just as the one that was written, where its
address fits. -/
theorem ofLocation_turns (known : "uri" ∈ names)
    (turns : rewriter.Turns .toClient names place value turned) :
    (Location.ofJson? turned).map Location.toHost =
      ((ofLocation? value).filter (fits rewriter)).map (toHost rewriter) := by
  unfold Location.ofJson? ofLocation?
  obtain ⟨before, after⟩ | ⟨_, slot, _, _, before, after, uri, range⟩ :=
    slots_turn_pair turns "uri" "range"
  · rw [before, after]
    rfl
  · rw [before, after]
    simp only [Option.bind_eq_bind, Option.bind_some, range.required blind_range]
    cases slot.required Range.ofJson? with
    | none => simp only [Option.bind_none, Option.bind_fun_none, Option.map_none, Option.filter_none]
    | some range =>
      simpa only [Option.bind_some, Option.map_eq_bind, Option.bind_assoc, Function.comp_def] using
        told_of_turns known uri range

/-- The same for a link, of which the host is told the target and what is selected in it. The other fields
have to decode as well, though nothing is made of them. -/
theorem ofLink_turns (known : "targetUri" ∈ names)
    (turns : rewriter.Turns .toClient names place value turned) :
    (LocationLink.ofJson? turned).map LocationLink.toHost =
      ((ofLink? value).filter (fits rewriter)).map (toHost rewriter) := by
  unfold LocationLink.ofJson? ofLink?
  have found := slots_turn turns
    ["originSelectionRange", "targetUri", "targetRange", "targetSelectionRange"]
  split at found
  next before after =>
    rw [before, after]
    rfl
  next before after =>
    rw [before, after]
    simp only [List.map] at found
    -- the four fields are read one by one, and each failure but that of the address is the same on
    -- both sides
    cases found with
    | cons origin rest =>
      cases rest with
      | cons uri rest =>
        cases rest with
        | cons range rest =>
          cases rest with
          | cons selection rest =>
            cases rest
            simp only [Option.bind_eq_bind, Option.bind_some, origin.optional blind_range,
              range.required blind_range, selection.required blind_range]
            cases Json.Slot.optional Range.ofJson? _ with
            | none => rfl
            | some origin =>
              cases Json.Slot.required Range.ofJson? _ with
              | none =>
                simp only [Option.bind_none, Option.bind_fun_none, Option.map_none,
                  Option.filter_none]
              | some range =>
                cases Json.Slot.required Range.ofJson? _ with
                | none =>
                  simp only [Option.bind_none, Option.bind_fun_none, Option.map_none,
                    Option.filter_none]
                | some selection =>
                  have told := told_of_turns known uri selection
                  simp only [Option.bind_some, Option.map_eq_bind, Option.bind_assoc,
                    Function.comp_def] at told ⊢
                  exact told
  next => exact found.elim

/-- Two options that are the same after mapping are both nothing, or both something. -/
theorem options_of_map {α β γ : Type} {a : Option α} {b : Option β} {f : α → γ} {g : β → γ}
    (same : a.map f = b.map g) :
    (a = none ∧ b = none) ∨ ∃ x y, a = some x ∧ b = some y ∧ f x = g y := by
  cases a <;> cases b <;> simp_all

/-- Lists are decoded as their items are: what holds of each item before and after the rewriting holds of
the lists, failures included. -/
theorem mapM_turns {α β γ ε : Type} {decode : Json → Option α} {read : Json → Option β}
    {tell : α → Except ε γ} {say : β → Except ε γ} {items turned : List Json}
    {turns : Json → Json → Prop} (turned_of : List.Forall₂ turns items turned)
    (each : ∀ value turned, turns value turned →
      (decode turned).map tell = (read value).map say) :
    (turned.mapM decode).map (List.mapM tell) = (items.mapM read).map (List.mapM say) := by
  induction turned_of with
  | nil => rfl
  | @cons value turned items rest head _ ih =>
    have same := each value turned head
    simp only [List.mapM_cons, Option.bind_eq_bind, Option.pure_def]
    obtain ⟨before, after⟩ | ⟨found, written, before, after, told⟩ := options_of_map same
    · rw [before, after]
      rfl
    · rw [before, after]
      obtain ⟨before, after⟩ | ⟨founds, writtens, before, after, rest⟩ := options_of_map ih
      · rw [before, after]
        rfl
      · rw [before, after]
        simp only [Option.bind_some, Option.map_some, List.mapM_cons, told, rest]

/-- The same for a value that is decoded as a list, which is an array before just if it is one after. -/
theorem list_turns {α : Type} {decode : Json → Option α} {read : Json → Option Written}
    {tell : α → Except ConversionError HostLocation}
    (turns : rewriter.Turns .toClient names place value turned)
    (each : ∀ value turned, rewriter.Turns .toClient names none value turned →
      (decode turned).map tell = (read value).map (toHost rewriter)) :
    (turned.list? decode).map (List.mapM tell) =
      (value.list? read).map (List.mapM (toHost rewriter)) := by
  have become := turns.cases
  cases value with
  | null | bool | num =>
    cases become
    rfl
  | str | obj =>
    obtain ⟨_, rfl, -⟩ := become
    rfl
  | arr items =>
    obtain ⟨_, rfl, parts⟩ := become
    exact mapM_turns parts each

/-- The answer to a question for definitions has one of three shapes, and the first that decodes counts.
Each shape decodes before and after at once, so the same one is taken. -/
theorem definitions_turn (locations : "uri" ∈ names) (links : "targetUri" ∈ names)
    (turns : rewriter.Turns .toClient names place value turned) :
    (Definitions.ofJson? turned).map Definitions.toHost =
      ((((ofLocation? value).filter (fits rewriter)).map fun only => [only]).or
        ((value.list? fun value => (ofLocation? value).filter (fits rewriter)).or
          (value.list? fun value => (ofLink? value).filter (fits rewriter)))).map
            (List.mapM (toHost rewriter)) := by
  have one := ofLocation_turns locations turns
  have many := list_turns turns fun _ _ => ofLocation_turns locations
  have linked := list_turns turns fun _ _ => ofLink_turns links
  unfold Definitions.ofJson?
  simp only [Option.map_or, ← many, ← linked, Option.map_map]
  congr 1
  have single (written : Written) :
      (toHost rewriter written).map (fun only => [only]) = [written].mapM (toHost rewriter) := by
    rw [List.mapM_cons, List.mapM_nil]
    cases toHost rewriter written <;> rfl
  have listed := congrArg (Option.map (Except.map fun only => [only])) one
  simpa only [Option.map_map, Function.comp_def, single, Definitions.toHost] using listed

/-! ## Answers -/

/-- A result that was rewritten is decoded to what the server wrote. The cases are no result, a list of
references, and the shapes of definitions. -/
theorem ofResult_turns {kind : ProviderKind} {method : String} (asked : kind ≠ .hover)
    (locations : "uri" ∈ names) (links : kind = .references ∨ "targetUri" ∈ names)
    (turns : rewriter.Turns .toClient names none value turned) :
    Answer.ofResult kind method turned =
      match listIn? rewriter kind value with
      | none => .error (.undecodable method)
      | some written => Answer.ofLocations (written.mapM (toHost rewriter)) := by
  have null := turns.isNull
  -- null stays null and lists no location; otherwise it depends on the kind which shapes are read
  cases empty : value.isNull with
  | true =>
    rw [empty] at null
    cases kind <;> first
      | exact absurd rfl asked
      | simp only [Answer.ofResult, Answer.decoded, Json.nullable?, null, listIn?, empty, if_true]
        rfl
  | false =>
    rw [empty] at null
    have defined (links : "targetUri" ∈ names) := options_of_map
      (definitions_turn locations links turns)
    cases kind with
    | hover => exact absurd rfl asked
    | references =>
      simp only [Answer.ofResult, Answer.decoded, Json.nullable?, null, listIn?, empty,
        Bool.false_eq_true, if_false]
      obtain ⟨before, after⟩ | ⟨found, written, before, after, told⟩ :=
        options_of_map (list_turns turns fun _ _ => ofLocation_turns locations)
      · rw [before, after]
        rfl
      · rw [before, after]
        exact congrArg Answer.ofLocations told
    | definition | typeDefinition | implementation =>
      simp only [Answer.ofResult, Answer.decoded, Json.nullable?, null, listIn?, empty,
        Bool.false_eq_true, if_false]
      obtain ⟨before, after⟩ | ⟨found, written, before, after, told⟩ :=
        defined (links.resolve_left (by decide))
      · rw [before, after]
        rfl
      · rw [before, after]
        exact congrArg Answer.ofLocations told

/-- The URL that the host is told of an address is the one by which it knows the address, if the address
stands under a key. For this the text of a converted URL has to read back, as it is parsed again. -/
theorem toHost_eq_ok {written : Written} {location : HostLocation} (readsBack : rewriter.ReadsBack)
    (told : written.toHost rewriter = .ok location) : written.Told rewriter location := by
  unfold Told
  unfold toHost shown at told
  cases keyed : written.keyed with
  | false =>
    simp only [keyed, Bool.false_eq_true, if_false] at told ⊢
    cases read : Url.read written.address with
    | error failure =>
      have failed : (Except.ok written.address >>= Url.read) = .error failure := read
      rw [failed] at told
      cases told
    | ok url =>
      have done : (Except.ok written.address >>= Url.read) = .ok url := read
      rw [done] at told
      cases told
      exact ⟨rfl, rfl⟩
  | true =>
    simp only [keyed, if_true] at told ⊢
    unfold convertText at told
    cases named : written.named rewriter with
    | error failure =>
      have failed : (Url.read written.address >>= rewriter.convert .toClient) =
          .error failure := named
      rw [failed] at told
      cases told
    | ok url =>
      have done : (Url.read written.address >>= rewriter.convert .toClient) = .ok url := named
      have back : Url.read url.text = .ok url := by
        simp only [Url.read, readsBack _ _ named]
      have shown : ((Except.ok url).map Url.text >>= Url.read : Except ConversionError Url) =
          .ok url := back
      rw [done, shown] at told
      cases told
      exact ⟨rfl, rfl⟩

end Written

/-- Only a feature with locations answers locations; a hover is of another kind. -/
theorem Answer.kind_of_locations {kind : ProviderKind} {method : String} {value : Json}
    {found : List HostLocation} (answered : ofResult kind method value = .ok (.locations found)) :
    kind ≠ .hover := by
  rintro rfl
  simp only [ofResult] at answered
  cases decoded : Answer.decoded method Hover.ofJson? value with
  | error failure =>
    rw [decoded] at answered
    cases answered
  | ok hover =>
    rw [decoded] at answered
    cases answered

/-- Every feature knows where locations have their addresses, and those with links know theirs. -/
theorem Feature.addressNames_of_mem : ∀ feature ∈ Feature.all, "uri" ∈ feature.addressNames ∧
    (feature.kind = .hover ∨ feature.kind = .references ∨ "targetUri" ∈ feature.addressNames) := by
  decide

/-- A location that the host is told of has its name exactly if it is known as it is written or
stands under a key. -/
theorem Written.Told.renamed_iff {rewriter : Rewriter} {written : Written} {location : HostLocation}
    (told : written.Told rewriter location) :
    written.Renamed rewriter location ↔
      (written.keyed = false → written.named rewriter = Url.read written.address) := by
  obtain ⟨range, uri⟩ := told
  cases keyed : written.keyed with
  | true =>
    rw [if_pos keyed] at uri
    exact ⟨fun _ => nofun, fun _ => ⟨range, uri⟩⟩
  | false =>
    rw [if_neg (by rw [keyed]; nofun)] at uri
    refine ⟨fun renamed _ => renamed.2.trans uri.symm, fun same => ⟨range, (same rfl).trans uri⟩⟩

/-- The same for all locations of an answer: they have their names together just if each that stands under
no key is known to the host as it is written. -/
theorem Written.renamed_iff_of_told {rewriter : Rewriter} {sent : List Written}
    {found : List HostLocation} (told : List.Forall₂ (Written.Told rewriter) sent found) :
    List.Forall₂ (Written.Renamed rewriter) sent found ↔
      ∀ written ∈ sent, written.keyed = false →
        written.named rewriter = Url.read written.address := by
  induction told with
  | nil => exact ⟨fun _ _ => nofun, fun _ => .nil⟩
  | cons head _ ih => rw [List.forall₂_cons, List.forall_mem_cons, ih, head.renamed_iff]

/-- Whenever the host is told of locations, they are those that the server wrote, in the same order
and with the same ranges. Each has the URL by which the host knows the address that the server
wrote, exactly if every address that stands under no key is known to the host as it is written. -/
theorem Feature.answer_locations {feature : Feature} {rewriter : Rewriter} {value : Json}
    {found : List HostLocation} (known : feature ∈ Feature.all) (readsBack : rewriter.ReadsBack)
    (answered : feature.answer rewriter (.ok value) = .ok (.locations found)) :
    ∃ sent, Written.listIn? rewriter feature.kind value = some sent ∧
      List.Forall₂ (Written.Told rewriter) sent found ∧
      (List.Forall₂ (Written.Renamed rewriter) sent found ↔
        ∀ written ∈ sent, written.keyed = false →
          written.named rewriter = Url.read written.address) := by
  -- an address that cannot be converted fails the answer as a whole, so here none did
  cases done : rewriter.rewriteAll .toClient feature.addressNames value with
  | error failure =>
    have failed : feature.answer rewriter (.ok value) = .error (.conversion failure) := by
      simp only [answer, bind, Except.bind, done]
    rw [failed] at answered
    cases answered
  | ok turned =>
    have read : feature.answer rewriter (.ok value) =
        Answer.ofResult feature.kind feature.method turned := by
      simp only [answer, bind, Except.bind, done]
    rw [read] at answered
    have turns : rewriter.Turns .toClient feature.addressNames none value turned := by
      unfold rewriteAll at done
      split at done
      next written rewritten =>
        cases done
        exact rewritten
      next => cases done
    have asked := Answer.kind_of_locations answered
    obtain ⟨locations, links⟩ := addressNames_of_mem feature known
    have links := links.resolve_left asked
    rw [Written.ofResult_turns asked locations links turns] at answered
    split at answered
    next => cases answered
    next sent listed =>
      cases told : sent.mapM (Written.toHost rewriter) with
      | error failure =>
        rw [told] at answered
        cases answered
      | ok locations =>
        rw [told] at answered
        cases answered
        have each := (mapM_eq_ok_iff.mp told).imp fun _ _ => Written.toHost_eq_ok readsBack
        exact ⟨sent, listed, each, Written.renamed_iff_of_told each⟩

/-- The host knows one document of the server, and no other. -/
def Rewriter.acquainted : Rewriter where
  toServer url := .error (.unmappable url.text)
  toClient url :=
    if url.text = "file:///srv/a.ts" then .ok ⟨"file:///here/a.ts"⟩
    else .error (.unmappable url.text)

/-- The one URL that this host knows of an address reads back. -/
theorem Rewriter.acquainted_readsBack : acquainted.ReadsBack := by
  intro text url named
  cases read : Url.read text with
  | error failure =>
    rw [read] at named
    cases named
  | ok known =>
    rw [read] at named
    simp only [acquainted, bind, Except.bind] at named
    split at named
    · cases named
      rfl
    · cases named

/-- A place in the first line. -/
def Json.firstLine : Json :=
  .obj [("end", .obj [("character", .natural 4), ("line", .natural 0)]),
    ("start", .obj [("character", .natural 0), ("line", .natural 0)])]

def Range.firstLine : Range := ⟨⟨0, 0⟩, ⟨0, 4⟩⟩

/-- Links are objects or arrays, and the keys of an object may come in any order. -/
theorem Feature.answer_locations_linked :
    ∃ sent, Written.listIn? Rewriter.acquainted .definition
        (.arr [.obj [("targetRange", .firstLine), ("targetSelectionRange", .firstLine),
          ("targetUri", .str "file:///srv/a.ts")]]) = some sent ∧
      List.Forall₂ (Written.Renamed Rewriter.acquainted) sent
        [⟨⟨"file:///here/a.ts"⟩, .firstLine⟩] := by
  let definitions : Feature :=
    ⟨"textDocument/definition", "definitionProvider", .definition, .inheritDefault, linkNames⟩
  have answered : definitions.answer Rewriter.acquainted
      (.ok (.arr [.obj [("targetRange", .firstLine), ("targetSelectionRange", .firstLine),
        ("targetUri", .str "file:///srv/a.ts")]])) =
      .ok (.locations [⟨⟨"file:///here/a.ts"⟩, .firstLine⟩]) := by rfl
  obtain ⟨sent, listed, -, renamed⟩ :=
    Feature.answer_locations (by decide) Rewriter.acquainted_readsBack answered
  refine ⟨sent, listed, renamed.mpr ?_⟩
  cases listed
  decide

/-- Two places that hold the same documents. -/
def Rewriter.mirrored : Rewriter := ofMappings [⟨⟨"file:///here/"⟩, ⟨"file:///srv/"⟩⟩]

/-- A location that is written as an array keeps the name that it has for the server. -/
theorem Feature.answer_locations_positional :
    Feature.answer ⟨"textDocument/references", "referencesProvider", .references, .inheritDefault,
        LanguageClient.addressNames⟩ Rewriter.mirrored
          (.ok (.arr [.arr [.str "file:///srv/a.ts", .firstLine]])) =
      .ok (.locations [⟨⟨"file:///srv/a.ts"⟩, .firstLine⟩]) ∧
    Written.listIn? Rewriter.mirrored .references
        (.arr [.arr [.str "file:///srv/a.ts", .firstLine]]) =
      some [⟨"file:///srv/a.ts", false, .firstLine⟩] ∧
    Written.named Rewriter.mirrored ⟨"file:///srv/a.ts", false, .firstLine⟩ =
      .ok ⟨"file:///here/a.ts"⟩ ∧
    ¬ Written.Renamed Rewriter.mirrored ⟨"file:///srv/a.ts", false, .firstLine⟩
      ⟨⟨"file:///srv/a.ts"⟩, .firstLine⟩ := by
  have named : Written.named Rewriter.mirrored ⟨"file:///srv/a.ts", false, .firstLine⟩ =
      .ok ⟨"file:///here/a.ts"⟩ := by rfl
  refine ⟨by rfl, by rfl, named, fun renamed => ?_⟩
  have same := named.symm.trans renamed.2
  revert same
  decide

end LanguageClient
