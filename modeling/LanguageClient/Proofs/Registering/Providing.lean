import LanguageClient.Proofs.Registering.Announcing
import LanguageClient.Proofs.Registering.Options
import LanguageClient.Proofs.Session.Offers

/-!
# The providers that registrations bring

Registrations that are carried out bring the host one provider for each of them that asks for something that
can be had, in their order; one that fails stops no later one, whatever the host does from inside its callbacks
(`Hosted.installAll_provided`).

What a server advertises by the answer to its greeting goes a long way: the features that the answer advertises
become registrations with options in JSON, which are read back, scoped to the root and carried out like the
requests of a server. What comes out is read off the table of features at once: it is one provider for each
feature with `true` or an object under its name, for the selector that its policy gives, scoped to the root,
without those that cannot be scoped (`World.welcome_provides`).
-/

namespace LanguageClient

/-! ## Providers for offers -/

/-- The next providers of the host, for these offers of a session. -/
def Host.providing (host : Host) (session : Nat) (offers : List Offer) : List Provider :=
  offers.mapIdx fun place offer =>
    ⟨host.provided.length + 1 + place, offer.kind, offer.selector, offer.feature, session⟩

namespace Host

variable {host host' : Host} {session : Nat} {offers more : List Offer}

/-- Offers that come after others get the numbers behind them. -/
theorem providing_append (provided : host'.provided = host.provided ++ host.providing session offers) :
    host.providing session (offers ++ more) =
      host.providing session offers ++ host'.providing session more := by
  unfold providing at provided ⊢
  rw [List.mapIdx_append, provided, List.length_append, List.length_mapIdx]
  refine congrArg (fun number => _ ++ more.mapIdx number) (funext fun place => funext fun offer => ?_)
  rw [show host.provided.length + 1 + (place + offers.length) =
    host.provided.length + offers.length + 1 + place by omega]

/-- Where what was withdrawn is known, the next providers are active. -/
theorem providers_providing (known : ∀ number ∈ host.withdrawn, number ≤ host.provided.length)
    (provided : host'.provided = host.provided ++ host.providing session offers)
    (withdrawn : host'.withdrawn = host.withdrawn) :
    host'.providers = host.providers ++ host.providing session offers := by
  unfold providers
  rw [provided, withdrawn, List.filter_append]
  refine congrArg (_ ++ ·) (List.filter_eq_self.mpr fun p member => ?_)
  obtain ⟨place, inside, rfl⟩ := List.mem_mapIdx.mp member
  refine decide_eq_true fun gone => ?_
  have old := known _ gone
  dsimp only at old
  omega

end Host

/-! ## Carrying registrations out -/

namespace Hosted

variable {h : Hosted}

/-- A callback by itself brings no provider. -/
theorem provided_ring (h : Hosted) (call : HostCall) : (h.ring call).host.provided = h.host.provided := by
  unfold ring Host.ring
  by_cases armed : call ∈ h.host.armed
  · simp only [armed, if_true]
    split <;> rfl
  · simp only [armed, if_false]

/-- A session that is disposed brings no provider. It withdraws its own, which remain among those that there
ever were. -/
theorem provided_dispose (h : Hosted) : h.dispose.host.provided = h.host.provided := by
  have cleared (views : List View) (k : Hosted) :
      (views.foldl (fun h view => (h.decorate view []).ring .setDecorations) k).host.provided =
        k.host.provided := by
    induction views generalizing k with
    | nil => rfl
    | cons view views ih => exact (ih _).trans (provided_ring (k.decorate view []) .setDecorations)
  unfold dispose
  split
  · rfl
  · exact cleared _ _

/-- A callback brings no provider, also if the host ends the client in it. -/
theorem provided_callback (h : Hosted) (call : HostCall) :
    (h.callback call).host.provided = h.host.provided := by
  unfold callback
  dsimp only
  split
  · exact (provided_dispose _).trans (provided_ring ..)
  · exact provided_ring ..

/-- Taking a registration back brings no provider. -/
theorem provided_uninstall (h : Hosted) (id : RegistrationId) :
    (h.uninstall id).host.provided = h.host.provided := by
  unfold uninstall
  split <;> rfl

/-- Adding a provider brings just that one, with the next number, whatever the host does when it is called
back. -/
theorem addProvider_provided (h : Hosted) (feature : Feature) (id : RegistrationId)
    (selector : DocumentSelector) : (h.addProvider feature id selector).host.provided =
      h.host.provided ++ h.host.providing h.number [feature.offer selector] := by
  unfold addProvider
  dsimp only
  rw [provided_uninstall, provided_callback]
  rfl

/-- A registration brings what it asks for, if that can be had. -/
theorem install_provided (h : Hosted) (registration : Registration) :
    (h.install registration).1 = registration.failure? h.session.root ∧
      (h.install registration).2.host.provided = h.host.provided ++
        h.host.providing h.number (registration.entry h.session.root).2.toList := by
  have beside := h.uninstall_beside registration.id
  have root : (h.uninstall registration.id).session.root = h.session.root := beside.session.root
  have number : (h.uninstall registration.id).number = h.number := beside.number
  have provided := h.provided_uninstall registration.id
  have next (offers : List Offer) : (h.uninstall registration.id).host.providing h.number offers =
      h.host.providing h.number offers := by
    unfold Host.providing
    rw [provided]
  unfold install Registration.entry Registration.failure?
  rw [← provided, ← root]
  generalize h.uninstall registration.id = k at number next ⊢
  dsimp only
  simp only [← next]
  rw [← number]
  cases known : Feature.ofMethod? registration.method with
  | none =>
    rw [wish_of_none known]
    exact ⟨rfl, (List.append_nil _).symm⟩
  | some feature =>
    rw [k.plan_eq known]
    dsimp only
    cases k.plan registration with
    | error failure => exact ⟨rfl, (List.append_nil _).symm⟩
    | ok selector => exact ⟨rfl, addProvider_provided ..⟩

/-- Each registration brings what it asks for, if that can be had; the first failure is kept. -/
theorem installEach_provided (h : Hosted) (registrations : List Registration) :
    (h.installEach registrations).1 = registrations.findSome? (·.failure? h.session.root) ∧
      (h.installEach registrations).2.host.provided = h.host.provided ++ h.host.providing h.number
        (registrations.filterMap fun registration => (registration.entry h.session.root).2) := by
  induction registrations generalizing h with
  | nil => exact ⟨rfl, (List.append_nil _).symm⟩
  | cons registration registrations ih =>
    have noted : (h.installNoted registration).1 = registration.failure? h.session.root ∧
        (h.installNoted registration).2.host.provided = h.host.provided ++
          h.host.providing h.number (registration.entry h.session.root).2.toList := by
      have installed := install_provided h registration
      unfold installNoted
      split
      next eq => rw [eq] at installed; exact installed
      next eq => rw [eq] at installed; exact installed
    have beside := h.installNoted_beside registration
    obtain ⟨failure, provided⟩ := ih (h.installNoted registration).2
    rw [beside.session.root] at failure provided
    rw [beside.number] at provided
    have kept : h.installEach (registration :: registrations) =
        ((h.installNoted registration).1.or ((h.installNoted registration).2.installEach registrations).1,
          ((h.installNoted registration).2.installEach registrations).2) := rfl
    rw [kept]
    constructor
    · rw [noted.1, failure, List.findSome?_cons]
      cases registration.failure? h.session.root <;> rfl
    · rw [provided, noted.2, List.append_assoc, ← Host.providing_append noted.2, List.filterMap_cons]
      cases (registration.entry h.session.root).2 <;> rfl

/-- The same for all registrations of a session that was not disposed. -/
theorem installAll_provided (live : h.session.isDisposed = false) (registrations : List Registration) :
    (h.installAll registrations).1 = registrations.findSome? (·.failure? h.session.root) ∧
      (h.installAll registrations).2.host.provided = h.host.provided ++ h.host.providing h.number
        (registrations.filterMap fun registration => (registration.entry h.session.root).2) := by
  have installed := h.installEach_provided registrations
  unfold installAll
  rw [live, if_neg Bool.false_ne_true]
  dsimp only
  split <;> exact installed

/-- What has no provider yet takes none from the host, and no other id is touched by its installation. -/
theorem install_withdrawn (quiet : h.host.armed = []) {registration : Registration}
    (free : h.session.registrations.find? registration.id = none) :
    (h.install registration).2.host.withdrawn = h.host.withdrawn ∧
      ∀ id, id ≠ registration.id → (h.install registration).2.session.registrations.find? id =
        h.session.registrations.find? id := by
  unfold install
  rw [uninstall_of_none free]
  dsimp only
  split
  · exact ⟨rfl, fun _ _ => rfl⟩
  · split
    · exact ⟨rfl, fun _ _ => rfl⟩
    · rw [addProvider_eq quiet free]
      exact ⟨rfl, fun id other => (Registrations.find?_insert ..).trans (if_neg other)⟩

/-- Registrations whose ids are told apart and have no provider yet take none from the host, as none of them
replaces another. -/
theorem installEach_withdrawn (quiet : h.host.armed = []) {registrations : List Registration}
    (distinct : (registrations.map Registration.id).Nodup)
    (free : ∀ registration ∈ registrations, h.session.registrations.find? registration.id = none) :
    (h.installEach registrations).2.host.withdrawn = h.host.withdrawn := by
  induction registrations generalizing h with
  | nil => rfl
  | cons registration registrations ih =>
    obtain ⟨apart, distinct⟩ := List.nodup_cons.mp distinct
    have noted : (h.installNoted registration).2.host.withdrawn = h.host.withdrawn ∧
        ∀ id, id ≠ registration.id → (h.installNoted registration).2.session.registrations.find? id =
          h.session.registrations.find? id := by
      have installed := install_withdrawn quiet (free registration List.mem_cons_self)
      unfold installNoted
      split
      next eq => rw [eq] at installed; exact installed
      next eq => rw [eq] at installed; exact installed
    have calm : (h.installNoted registration).2.host.armed = [] :=
      (installEach_spares quiet [registration]).1.armed.trans quiet
    refine (ih calm distinct fun other member => ?_).trans noted.1
    have different : other.id ≠ registration.id := fun same =>
      apart (same ▸ List.mem_map_of_mem member)
    rw [noted.2 _ different]
    exact free other (List.mem_cons_of_mem _ member)

end Hosted

/-! ## What a server advertises -/

/-- What a feature is offered for, if the capabilities advertise it and its selector can be scoped. -/
def Feature.granted? (feature : Feature) (capabilities : Json) (default : DocumentSelector)
    (root : Option Url) : Option Offer :=
  (feature.advertised? capabilities).bind fun capability =>
    (DocumentSelector.scope (feature.registerOptions capability default).documentSelector
      root).toOption.map feature.offer

namespace Feature

/-- A feature is advertised by `true` or by an object under its name, and by nothing else. -/
theorem advertised?_eq_some_iff {feature : Feature} {capabilities value : Json} :
    feature.advertised? capabilities = some value ↔ capabilities.get? feature.capability = some value ∧
      (value = .bool true ∨ ∃ fields, value = .obj fields) := by
  unfold advertised?
  constructor
  · intro found
    split at found
    next known => cases found; exact ⟨known, .inl rfl⟩
    next fields known => cases found; exact ⟨known, .inr ⟨fields, rfl⟩⟩
    next => cases found
  · rintro ⟨known, rfl | ⟨fields, rfl⟩⟩
    · rw [known]
    · rw [known]

/-- The method of a feature is that of no other. -/
theorem ofMethod?_method : ∀ feature ∈ all, ofMethod? feature.method = some feature := by decide

end Feature

/-- Options that were written bring what they say. -/
theorem Registration.entry_toJson {feature : Feature} (member : feature ∈ Feature.all) (id : RegistrationId)
    (options : RegisterOptions) (root : Option Url) :
    (entry ⟨id, feature.method, some options.toJson⟩ root).2 =
      (DocumentSelector.scope options.documentSelector root).toOption.map feature.offer := by
  unfold entry wish
  rw [Feature.ofMethod?_method feature member]
  dsimp only
  rw [options.ofRegistration_toJson]
  dsimp only
  cases DocumentSelector.scope options.documentSelector root <;> rfl

/-- What a registration brings is what it asks for, where that is a feature and can be had. -/
theorem Registration.entry_snd (registration : Registration) (root : Option Url) :
    (registration.entry root).2 = (registration.wish root).toOption.join := by
  unfold entry
  cases registration.wish root <;> rfl

/-- Choosing among items that were given their places, where the choice does not look at the place. -/
theorem filterMap_mapIdx {α β γ : Type} {f : Nat → α → β} {g : β → Option γ} {k : α → Option γ}
    (same : ∀ place item, g (f place item) = k item) (items : List α) :
    (items.mapIdx f).filterMap g = items.filterMap k := by
  induction items generalizing f with
  | nil => rfl
  | cons item items ih =>
    rw [List.mapIdx_cons, List.filterMap_cons, List.filterMap_cons, same 0 item,
      ih fun place => same (place + 1)]

namespace ClientOptions

variable (options : ClientOptions) (answer : Json)

/-- The ids that the client gives to what a server advertises are told apart, being numbered. -/
theorem advertised_distinct : ((options.advertised answer).map Registration.id).Nodup := by
  unfold advertised Feature.staticRegistrations
  dsimp only
  generalize Feature.all.filterMap _ = asked
  have ids : (asked.mapIdx fun place one =>
      (⟨.minted place, one.1, some one.2⟩ : Registration)).map Registration.id =
      (List.range' 0 asked.length).map .minted := by
    rw [List.mapIdx_eq_zipIdx_map, ← List.zipIdx_map_snd, List.map_map, List.map_map]
    rfl
  rw [ids]
  exact (List.nodup_range' 1).map fun _ _ same => RegistrationId.minted.inj same

/-- What an answer advertises brings what the table of features says: a registration is made for each
feature that is advertised, and its entry is that of the feature's own scoping. -/
theorem advertised_granted (root : Option Url) :
    ((options.advertised answer).filterMap fun registration => (registration.entry root).2) =
      Feature.all.filterMap fun feature =>
        feature.granted? ((answer.get? "capabilities").getD .null) options.config.documentSelector root := by
  unfold advertised Feature.staticRegistrations
  generalize (answer.get? "capabilities").getD .null = capabilities
  dsimp only
  have unnumbered (place : Nat) (asked : String × Json) :
      (Registration.entry ⟨.minted place, asked.1, some asked.2⟩ root).2 =
        (Registration.entry ⟨.minted 0, asked.1, some asked.2⟩ root).2 := by
    rw [Registration.entry_snd, Registration.entry_snd]
    rfl
  rw [filterMap_mapIdx (g := fun registration : Registration => (registration.entry root).2) unnumbered,
    List.filterMap_filterMap]
  refine List.filterMap_congr fun feature member => ?_
  unfold Feature.granted?
  cases feature.advertised? capabilities with
  | none => rfl
  | some capability => exact Registration.entry_toJson member _ _ root

end ClientOptions

namespace Hosted

variable {h : Hosted}

/-- What the server advertises brings the host what the table of features says, in the order of the table.
-/
theorem installStatic_provided (live : h.session.isDisposed = false) (options : ClientOptions)
    (answer : Json) : (h.installStatic options answer).host.provided =
      h.host.provided ++ h.host.providing h.number (Feature.all.filterMap fun feature =>
        feature.granted? ((answer.get? "capabilities").getD .null) options.config.documentSelector
          h.session.root) := by
  have installed := (h.installAll_provided live (options.advertised answer)).2
  rw [options.advertised_granted] at installed
  rw [installStatic_eq]
  split
  next eq => rw [eq] at installed; exact installed
  next eq => rw [eq] at installed; exact installed

/-- It takes no provider from the host, as long as none of these ids has one and the host does not end the
client. -/
theorem installStatic_withdrawn (quiet : h.host.armed = []) (live : h.session.isDisposed = false)
    (free : ∀ number, h.session.registrations.find? (.minted number) = none) (options : ClientOptions)
    (answer : Json) : (h.installStatic options answer).host.withdrawn = h.host.withdrawn := by
  have installed := installEach_withdrawn quiet (options.advertised_distinct answer)
    fun registration member => by
      obtain ⟨number, same⟩ := options.advertised_minted answer member
      rw [same]
      exact free number
  rw [installStatic_eq, installAll_eq quiet live]
  split
  next eq => rw [eq] at installed; exact installed
  next eq => rw [eq] at installed; exact installed

end Hosted

namespace World

variable {w : World} {n : Nat} {s : Session}

/-- What no session changes about the host when it is disposed, stays when the client ends. -/
theorem endClient_host {α : Type} (look : Host → α) (kept : ∀ h : Hosted, look h.dispose.host = look h.host)
    (w : World) : look w.endClient.host = look w.host := by
  have torn (v : World) (number : Nat) : look (v.tearDown number).2.host = look v.host := by
    unfold tearDown onSession
    split
    · rfl
    next s found => exact kept ⟨s, number, v.host, v.reachOf number, false⟩
  have revoked (v : World) (number : Nat) : look (v.revoke number).2.host = look v.host := by
    unfold revoke
    dsimp only
    split
    · exact torn (v.setStartup number .cancelled) _
    · rfl
  have each (entries : List RootEntry) (v : World) :
      look (entries.foldl (fun w entry => (revoke w entry.opening).2) v).host = look v.host := by
    induction entries generalizing v with
    | nil => rfl
    | cons entry entries ih => exact (ih _).trans (revoked v entry.opening)
  have any (v : World) (session : Option Nat) : look (v.tearDownAny session).host = look v.host := by
    cases session with
    | none => rfl
    | some session => exact torn v session
  rw [endClient_eq]
  exact (each w.entries _).trans (any _ w.shared)

/-- What an operation of a session does to the providers is what it does to those of the world, as the host
is put back along with the session. -/
theorem within_provided {α : Type} (run : Hosted → α × Hosted) (default : α)
    (found : w.sessions[n]? = some s) : (w.within n default run).2.host.provided =
      (run ⟨s, n, w.host, w.reachOf n, false⟩).2.host.provided := by
  unfold within onSession
  rw [found]
  dsimp only
  generalize run ⟨s, n, w.host, w.reachOf n, false⟩ = ran
  obtain ⟨result, h⟩ := ran
  dsimp only
  cases h.hasEnded with
  | false => rfl
  | true => exact endClient_host Host.provided Hosted.provided_dispose _

/-- When the server has answered the greeting on an open connection, and each document under the root has a
name, the handshake comes to a good end, and the host gets one provider for each feature that the answer
advertises by `true` or an object, in the order of the table: it is of the kind of the feature, and for the
selector that the feature takes from the capability or the configuration, scoped to the root; what cannot be
scoped is left out. As long as the host does not end the client from inside a callback, and none of the client's
own ids is in use, these are active and no other provider is withdrawn for them. Options in JSON that are read
again are what they were. -/
theorem welcome_provides {answer : Json} (found : w.sessions[n]? = some s)
    (opened : s.connection.isOpen = true) (live : s.isDisposed = false)
    (named : ∀ document ∈ w.covered s, (w.options.rewriter.announcement? document).isSome) :
    let capabilities := (answer.get? "capabilities").getD .null
    let offers := Feature.all.filterMap fun feature =>
      (feature.advertised? capabilities).bind fun capability =>
        (DocumentSelector.scope
          (feature.registerOptions capability w.options.config.documentSelector).documentSelector
          s.root).toOption.map feature.offer
    (w.welcome n (.ok answer)).1 = none ∧
    (w.welcome n (.ok answer)).2.host.provided = w.host.provided ++ w.host.providing n offers ∧
    (w.host.armed = [] → (∀ number, s.registrations.find? (.minted number) = none) →
      (∀ number ∈ w.host.withdrawn, number ≤ w.host.provided.length) →
        (w.welcome n (.ok answer)).2.host.providers = w.host.providers ++ w.host.providing n offers) ∧
    (∀ (feature : Feature) (value : Json), feature.advertised? capabilities = some value ↔
      capabilities.get? feature.capability = some value ∧ (value = .bool true ∨ ∃ fields, value = .obj fields)) ∧
    ∀ (options : RegisterOptions) (method : String),
      RegisterOptions.ofRegistration (some options.toJson) method = .ok options := by
  intro capabilities offers
  let h : Hosted := ⟨s, n, w.host, w.reachOf n, false⟩
  obtain ⟨outcome, -⟩ := within_said (fun h => h.welcome w.options (.ok answer)) (some .connectionClosed) found
  obtain ⟨told, -, welcomed⟩ := h.welcome_eq w.options answer opened
  have free : h.covered.findSome? w.options.rewriter.refusal? = none := Rewriter.findSome?_refusal?.mpr named
  simp only [free] at welcomed
  have provided : (w.welcome n (.ok answer)).2.host.provided =
      w.host.provided ++ w.host.providing n offers := by
    refine (within_provided (fun h => h.welcome w.options (.ok answer)) _ found).trans ?_
    change (h.welcome w.options (.ok answer)).2.host.provided = _
    rw [welcomed]
    exact Hosted.installStatic_provided (h := h.withConnection told) live ..
  refine ⟨outcome.trans (congrArg Prod.fst welcomed), provided, ?_,
    fun feature value => Feature.advertised?_eq_some_iff, RegisterOptions.ofRegistration_toJson⟩
  intro quiet fresh known
  refine Host.providers_providing known provided ?_
  obtain ⟨-, stays⟩ := (h.welcome_beside w.options (.ok answer)).calm quiet
  have host : (w.welcome n (.ok answer)).2.host = (h.welcome w.options (.ok answer)).2.host := by
    unfold World.welcome within onSession
    rw [found]
    change (endIf ((h.welcome w.options (.ok answer)).2.hasEnded, _)).host = _
    rw [stays]
    rfl
  rw [host, welcomed]
  exact Hosted.installStatic_withdrawn (h := h.withConnection told) quiet live fresh ..

/-- An answer that advertises two features in two ways, and one by no value that counts. -/
def Sample.mixed : Json :=
  .obj [("capabilities", .obj [("hoverProvider", .bool true), ("referencesProvider", .int 1),
    ("typeDefinitionProvider", .obj [("documentSelector", .arr [.str "a"])])])]

/-- Two of three features become providers, each for a selector of its own. -/
theorem welcome_provides_mixed :
    ((Sample.answered [Sample.plain]).welcome 0 (.ok Sample.mixed)).1 = none ∧
    (((Sample.answered [Sample.plain]).welcome 0 (.ok Sample.mixed)).2.host.providers.map fun p =>
      (p.number, p.kind, p.selector, p.session)) =
      [(1, .hover, [.filter ⟨none, none, some "file:///here/**"⟩], 0),
        (2, .typeDefinition, [.filter ⟨some "a", none, some "file:///here/**"⟩], 0)] := by
  obtain ⟨outcome, -, active, -⟩ :
      ((Sample.answered [Sample.plain]).welcome 0 (.ok Sample.mixed)).1 = none ∧ _ :=
    welcome_provides rfl (by decide) (by decide) (by decide)
  refine ⟨outcome, ?_⟩
  rw [active (by decide) (fun number => rfl) (by decide)]
  decide

end World

end LanguageClient
