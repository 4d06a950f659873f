import LanguageClient.Proofs.Registering.Catalogue
import LanguageClient.Proofs.Registering.Providing

/-!
# Selectors that a server declares

Of two features a server declares the documents itself, and it can do so in two places: in the object by which
it advertises the feature, and in the options of a registration. The two are not read alike. Options are read as
a whole, and what is no selector fails them; of an advertised object the selector is read alone, and what is no
selector counts as none, which is to say that it fits every document.

So an object that declares nothing, `null` or a selector comes to the same in both places. One that declares
anything else comes to the same only where no selector can be scoped at all; everywhere else the feature that
was advertised is offered for everything, and the registration fails (`Hosted.declares_iff`).
-/

namespace LanguageClient

/-! ## What an object declares -/

/-- An object declares no documents, `null` or a selector. -/
def DeclaresWell (fields : List (String × Json)) : Prop :=
  ∀ value, Json.lookup "documentSelector" fields = some value →
    value = .null ∨ ∃ selector, DocumentSelector.ofJson? value = some selector

/-- The selector that an object declares, if there is one that can be read. -/
def declared (fields : List (String × Json)) : Option DocumentSelector :=
  (Json.lookup "documentSelector" fields).bind DocumentSelector.ofJson?

variable {fields : List (String × Json)}

/-- An object that declares badly declares nothing that can be read. -/
theorem declared_of_not_well (badly : ¬ DeclaresWell fields) : declared fields = none := by
  unfold DeclaresWell at badly
  push Not at badly
  obtain ⟨value, found, -, unread⟩ := badly
  rw [declared, found, Option.bind_some]
  exact Option.eq_none_iff_forall_ne_some.mpr unread

namespace RegisterOptions

/-- Options are read as what the object has under its one key: no selector where there is none, or `null`,
and no options where the value is no selector. -/
theorem ofJson?_obj (fields : List (String × Json)) : ofJson? (.obj fields) =
    match Json.lookup "documentSelector" fields with
    | none => some ⟨none⟩
    | some value =>
      if value = .null then some ⟨none⟩
      else (DocumentSelector.ofJson? value).map fun selector => ⟨some selector⟩ := by
  unfold ofJson?
  simp only [Json.slots?, List.map_cons, List.map_nil, Option.bind_eq_bind, Option.bind_some]
  cases Json.lookup "documentSelector" fields with
  | none => rfl
  | some value =>
    cases value with
    | null => rfl
    | _ =>
      simp only [Json.Slot.orElse, Json.Slot.optional, Json.Slot.optionalIn, Json.isNull, Bool.false_eq_true,
        and_false, if_false, reduceCtorEq, Option.bind_map, Function.comp_def]
      rw [Option.map_eq_bind]
      rfl

/-- Options that declare well are read as they declare: with the selector that is there, or with none if it
is absent or null. -/
theorem ofRegistration_of_well (well : DeclaresWell fields) (method : String) :
    ofRegistration (some (.obj fields)) method = .ok ⟨declared fields⟩ := by
  unfold ofRegistration declared
  dsimp only
  rw [ofJson?_obj]
  cases found : Json.lookup "documentSelector" fields with
  | none => rfl
  | some value =>
    dsimp only
    obtain rfl | ⟨selector, read⟩ := well value found
    · rfl
    · have nonnull : value ≠ .null := by
        rintro rfl
        cases read
      rw [if_neg nonnull, Option.bind_some, read]
      rfl

/-- Options that declare badly are not read. So a server that asks for them in a request is told that they
cannot be decoded. -/
theorem ofRegistration_of_not_well (badly : ¬ DeclaresWell fields) (method : String) :
    ofRegistration (some (.obj fields)) method = .error (.undecodable method) := by
  unfold DeclaresWell at badly
  push Not at badly
  obtain ⟨value, found, nonnull, unread⟩ := badly
  unfold ofRegistration
  dsimp only
  rw [ofJson?_obj, found]
  dsimp only
  rw [if_neg nonnull, Option.eq_none_iff_forall_ne_some.mpr unread]
  rfl

end RegisterOptions

namespace Registration

variable {feature : Feature} {id : RegistrationId} {root : Option Url}

/-- A registration whose options declare well brings what they declare. -/
theorem entry_of_well (member : feature ∈ Feature.all) (well : DeclaresWell fields) :
    (entry ⟨id, feature.method, some (.obj fields)⟩ root).2 =
      (DocumentSelector.scope (declared fields) root).toOption.map feature.offer := by
  unfold entry wish
  rw [Feature.ofMethod?_method feature member]
  dsimp only
  rw [RegisterOptions.ofRegistration_of_well well]
  dsimp only
  cases DocumentSelector.scope (declared fields) root <;> rfl

/-- A registration whose options declare badly brings nothing, and fails. -/
theorem wish_of_not_well (member : feature ∈ Feature.all) (badly : ¬ DeclaresWell fields) :
    wish ⟨id, feature.method, some (.obj fields)⟩ root = .error (.undecodable feature.method) := by
  unfold wish
  rw [Feature.ofMethod?_method feature member]
  dsimp only
  rw [RegisterOptions.ofRegistration_of_not_well badly]

end Registration

namespace Feature

/-- What a server advertises of one feature brings nothing of the others. -/
theorem granted_single {feature : Feature} (member : feature ∈ all) (value : Json)
    (default : DocumentSelector) (root : Option Url) :
    (all.filterMap fun other => other.granted? (.obj [(feature.capability, value)]) default root) =
      (feature.granted? (.obj [(feature.capability, value)]) default root).toList := by
  have alone : ∀ other ∈ all, ∀ feature ∈ all, other.capability = feature.capability → other = feature := by
    decide
  have unlike {other : Feature} (inside : other ∈ all) (apart : other ≠ feature) :
      other.granted? (.obj [(feature.capability, value)]) default root = none := by
    have absent : (Json.obj [(feature.capability, value)]).get? other.capability = none := by
      have differs : ¬ feature.capability = other.capability := fun same =>
        apart (alone other inside feature member same.symm)
      simp only [Json.get?, Json.lookup, differs, if_false]
    unfold granted? advertised?
    rw [absent]
    rfl
  have distinct : all.Nodup := by decide
  obtain ⟨before, after, split⟩ := List.append_of_mem member
  rw [split, List.nodup_append, List.nodup_cons] at distinct
  obtain ⟨-, ⟨later, -⟩, earlier⟩ := distinct
  have nothing {others : List Feature} (inside : ∀ other ∈ others, other ∈ all)
      (apart : ∀ other ∈ others, other ≠ feature) :
      (others.filterMap fun other =>
        other.granted? (.obj [(feature.capability, value)]) default root) = [] :=
    List.filterMap_eq_nil_iff.mpr fun other at_other => unlike (inside other at_other) (apart other at_other)
  rw [split] at nothing ⊢
  rw [List.filterMap_append, List.filterMap_cons,
    nothing (fun other at_other => List.mem_append_left _ at_other)
      (fun other at_other same => earlier other at_other _ List.mem_cons_self same),
    nothing (fun other at_other => List.mem_append_right _ (List.mem_cons_of_mem _ at_other))
      (fun other at_other same => later (same ▸ at_other))]
  cases feature.granted? (.obj [(feature.capability, value)]) default root <;> rfl

/-- What a server advertises by an object brings what it declares, for a feature that lets it. -/
theorem granted?_declared {feature : Feature} (declares : feature.policy = .declared)
    (fields : List (String × Json)) (default : DocumentSelector) (root : Option Url) :
    feature.granted? (.obj [(feature.capability, .obj fields)]) default root =
      (DocumentSelector.scope (declared fields) root).toOption.map feature.offer := by
  unfold granted? advertised? registerOptions
  rw [declares]
  simp only [Json.get?, Json.lookup, if_true, Option.bind_some]
  rfl

end Feature

namespace Hosted

variable {h : Hosted} {feature : Feature} {options : ClientOptions}

/-- The answer of a server that advertises one feature by an object. -/
def advertising (feature : Feature) (fields : List (String × Json)) : Json :=
  .obj [("capabilities", .obj [(feature.capability, .obj fields)])]

/-- A feature that is advertised by an object is offered for what the object declares, and for everything if
that is no selector. -/
theorem advertising_provided (member : feature ∈ Feature.all) (declares : feature.policy = .declared)
    (live : h.session.isDisposed = false) :
    (h.installStatic options (advertising feature fields)).host.provided = h.host.provided ++
      h.host.providing h.number
        ((DocumentSelector.scope (declared fields) h.session.root).toOption.map feature.offer).toList := by
  have capabilities : ((advertising feature fields).get? "capabilities").getD .null =
      .obj [(feature.capability, .obj fields)] := rfl
  rw [installStatic_provided live, capabilities, Feature.granted_single member,
    Feature.granted?_declared declares]

variable {params : Json} {id : RegistrationId}

/-- A request to register one feature carries the one registration out, and acknowledges it or names its
failure. -/
theorem serve_single (live : h.session.isDisposed = false) {registration : Registration}
    (asks : Registration.ofParams? params = some [registration]) (method : String) :
    (h.serve .register method params).1 = acknowledgement (registration.failure? h.session.root) ∧
      (h.serve .register method params).2.host.provided = h.host.provided ++
        h.host.providing h.number (registration.entry h.session.root).2.toList := by
  obtain ⟨failure, provided⟩ := installAll_provided live [registration]
  unfold serve
  rw [asks]
  dsimp only
  rw [failure, provided]
  simp only [List.findSome?_cons, List.findSome?_nil, List.filterMap_cons, List.filterMap_nil]
  constructor
  · cases registration.failure? h.session.root <;> rfl
  · cases (registration.entry h.session.root).2 <;> rfl

/-- An object declares the documents of a feature alike in the answer to the greeting and in a registration,
so that the host gets the same providers, just if it declares nothing, `null` or a selector, or if a provider for
everything could not be scoped to the root. What declares well is offered for what it declares, in both places;
otherwise the feature that was advertised is offered for everything, and the registration brings nothing and
fails. -/
theorem declares_iff (member : feature ∈ Feature.all) (declares : feature.policy = .declared)
    (live : h.session.isDisposed = false) (options : ClientOptions) (fields : List (String × Json))
    (asks : Registration.ofParams? params = some [⟨id, feature.method, some (.obj fields)⟩]) :
    let advertised := h.installStatic options (advertising feature fields)
    let asked := h.serve .register registerMethod params
    let offered (selector : Option DocumentSelector) := h.host.provided ++ h.host.providing h.number
      ((DocumentSelector.scope selector h.session.root).toOption.map feature.offer).toList
    (advertised.host.provided = asked.2.host.provided ↔
      DeclaresWell fields ∨ ∃ failure, DocumentSelector.scope none h.session.root = .error failure) ∧
    (DeclaresWell fields → advertised.host.provided = offered (declared fields) ∧
      asked.2.host.provided = offered (declared fields)) ∧
    (¬ DeclaresWell fields → advertised.host.provided = offered none ∧
      asked.2.host.provided = h.host.provided ∧ asked.1 = .error (.undecodable feature.method)) := by
  intro advertised asked offered
  have static : advertised.host.provided = offered (declared fields) :=
    advertising_provided member declares live
  obtain ⟨outcome, dynamic⟩ := serve_single live asks registerMethod
  -- a well declared selector is read by both paths; a malformed one is dropped by the one and
  -- refused by the other
  by_cases well : DeclaresWell fields
  · have same : asked.2.host.provided = offered (declared fields) := by
      rw [Registration.entry_of_well member well] at dynamic
      exact dynamic
    exact ⟨iff_of_true (static.trans same.symm) (.inl well), fun _ => ⟨static, same⟩, fun badly => absurd well badly⟩
  · have fails : Registration.wish ⟨id, feature.method, some (.obj fields)⟩ h.session.root =
        .error (.undecodable feature.method) := Registration.wish_of_not_well member well
    have nothing : asked.2.host.provided = h.host.provided := by
      refine dynamic.trans ?_
      unfold Registration.entry
      rw [fails]
      exact List.append_nil _
    have refused : asked.1 = .error (.undecodable feature.method) := by
      refine outcome.trans ?_
      unfold Registration.failure?
      rw [fails]
      rfl
    rw [declared_of_not_well well] at static
    refine ⟨?_, fun good => absurd good well, fun _ => ⟨static, nothing, refused⟩⟩
    rw [static, nothing]
    dsimp only [offered]
    cases DocumentSelector.scope none h.session.root with
    | error failure => exact iff_of_true (List.append_nil _) (.inr ⟨failure, rfl⟩)
    | ok selector =>
      refine iff_of_false (fun same => ?_) (fun either => either.elim well nofun)
      cases List.append_right_eq_self.mp same

/-- A selector that is declared well is the same in both places. -/
theorem declares_iff_language : ∃ feature ∈ Feature.all, feature.policy = .declared ∧
    let h : Hosted := ⟨Session.attach (some ⟨"file:///here"⟩) 1 "client", 0, Host.new, .nobody, false⟩
    let fields := [("documentSelector", Json.arr [.str "a"])]
    let params := Json.obj [("registrations",
      .arr [World.Sample.registration "id" feature.method (.obj fields)])]
    let provided : List Provider :=
      [⟨1, .typeDefinition, [.filter ⟨some "a", none, some "file:///here/**"⟩], feature, 0⟩]
    (h.installStatic World.Sample.single (advertising feature fields)).host.provided = provided ∧
      (h.serve .register registerMethod params).2.host.provided = provided := by
  refine ⟨⟨"textDocument/typeDefinition", "typeDefinitionProvider", .typeDefinition, .declared, linkNames⟩,
    by decide, rfl, ?_⟩
  intro h fields params provided
  have member : (⟨"textDocument/typeDefinition", "typeDefinitionProvider", .typeDefinition, .declared,
    linkNames⟩ : Feature) ∈ Feature.all := by decide
  have asks : Registration.ofParams? params =
      some [⟨.named "id", "textDocument/typeDefinition", some (.obj fields)⟩] := rfl
  obtain ⟨-, good, -⟩ := declares_iff (h := h) member rfl rfl World.Sample.single fields asks
  apply good
  intro value found
  cases found
  exact .inr ⟨[.language "a"], rfl⟩

end Hosted

namespace World

/-- What is no selector. -/
def Sample.misdeclared : List (String × Json) := [("documentSelector", .int 42)]

/-- A server advertises a feature with something that is no selector. -/
def Sample.misadvertised : List Move :=
  [.roots [⟨"file:///here"⟩], .register "client", .poll .register,
    .send 0 [.response ⟨"2.0", some (.number 1),
      some (.obj [("capabilities", .obj [("typeDefinitionProvider", .obj Sample.misdeclared)])]), none⟩],
    .poll (.reader 0), .poll .register]

/-- A server asks to register the feature with the same. -/
def Sample.misregistered : List Move :=
  [.roots [⟨"file:///here"⟩], .register "client", .poll .register,
    .send 0 [.response ⟨"2.0", some (.number 1), some (.obj []), none⟩], .poll (.reader 0), .poll .register,
    .send 0 [Sample.request 1 registerMethod "registrations"
      [Sample.registration "a" "textDocument/typeDefinition" (.obj Sample.misdeclared)]],
    .poll (.reader 0), .poll (.job 0 0)]

/-- What is no selector is widened to everything where it is advertised, and brings nothing where it is
registered. -/
theorem run_widens_selector :
    Json.lookup "documentSelector" Sample.misdeclared = some (.int 42) ∧
    DocumentSelector.ofJson? (.int 42) = none ∧
    ((start Sample.single).run Sample.misadvertised).host.providers.map (fun p => (p.kind, p.selector)) =
      [(.typeDefinition, [.filter ⟨none, none, some "file:///here/**"⟩])] ∧
    ((start Sample.single).run Sample.misregistered).host.providers = [] ∧
    ∃ s, ((start Sample.single).run Sample.misregistered).sessions[0]? = some s ∧ s.isActive = true ∧
      s.said.getLast? = some (.response (.failure (.number 1)
        (ClientError.undecodable "textDocument/typeDefinition").toResponseError)) := by
  exact ⟨rfl, rfl, by decide, by decide, _, rfl, by decide, by decide⟩

end World

end LanguageClient
